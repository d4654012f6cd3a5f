import Std.Data.TreeMap

/-!
# Catalogue — entries filed under keys of their own

Every entry of a catalogue is **filed under its own key** (`Catalogue.keyed`), and of several entries
with one key the last one filed stays (`Catalogue.get?_insert`).
-/

namespace Reckon

/-- Entries, each filed under the key it has. -/
structure Catalogue {κ β : Type} [Ord κ] (key : β → κ) where
  entries : Std.TreeMap κ β
  keyed : ∀ k b, entries[k]? = some b → key b = k

namespace Catalogue

variable {κ β : Type} [Ord κ] {key : β → κ}

/-- The entry filed under a key. -/
def get? (t : Catalogue key) (k : κ) : Option β := t.entries[k]?

/-- Whether there is an entry under a key. -/
def contains (t : Catalogue key) (k : κ) : Bool := t.entries.contains k

/-- The number of entries. -/
def size (t : Catalogue key) : Nat := t.entries.size

/-- Whether there is no entry. -/
def isEmpty (t : Catalogue key) : Bool := t.entries.isEmpty

/-- The keys in ascending order. -/
def keys (t : Catalogue key) : List κ := t.entries.keys

theorem key_of_get? {t : Catalogue key} {k : κ} {b : β} (h : t.get? k = some b) : key b = k :=
  t.keyed k b h

variable [Std.TransOrd κ]

/-- The catalogue with no entry. -/
def empty : Catalogue key := ⟨∅, by simp⟩

@[simp] theorem get?_empty (k : κ) : (empty : Catalogue key).get? k = none := by
  simp [empty, get?]

variable [Std.LawfulEqOrd κ]

/-- Files an entry under its key, in the place of any other with that key. -/
def insert (t : Catalogue key) (b : β) : Catalogue key where
  entries := t.entries.insert (key b) b
  keyed k c h := by
    rw [Std.TreeMap.getElem?_insert] at h
    split at h
    · next hk => exact Option.some.inj h ▸ Std.LawfulEqOrd.eq_of_compare hk
    · exact t.keyed k c h

/-- The catalogue of a list of entries, later ones in the place of earlier ones. -/
def ofList (bs : List β) : Catalogue key := bs.foldl insert empty

/-- **The last entry filed under a key is the one found there.** -/
theorem get?_insert [DecidableEq κ] (t : Catalogue key) (b : β) (k : κ) :
    (t.insert b).get? k = if key b = k then some b else t.get? k := by
  simp only [get?, insert, Std.TreeMap.getElem?_insert, Std.LawfulEqOrd.compare_eq_iff_eq]

/-- What is true of all entries is true of them and one more of which it is true. -/
theorem of_get?_insert [DecidableEq κ] {P : β → Prop} {t : Catalogue key} {b c : β} {k : κ}
    (hb : P b) (ht : ∀ c, t.get? (key c) = some c → P c) (h : (t.insert b).get? k = some c) : P c := by
  obtain rfl := key_of_get? h
  rw [get?_insert] at h
  split at h
  · exact Option.some.inj h ▸ hb
  · exact ht c h

end Catalogue

end Reckon
