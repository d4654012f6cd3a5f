/-!
# Proofs/Result — what a chain of steps that may fail comes to

A chain succeeds **iff each of its steps does** (`bind_eq_ok_iff`, `map_eq_ok_iff`), and a step that
has succeeded drops out of it.  What is true of each step's result or fault is true of the chain's
(`Concludes.bind`, `Concludes.foldlM`).  Two chains end alike if their steps do (`Alike.bind`).
-/

namespace Reckon

variable {ε α β γ : Type}

@[simp] theorem ok_bind (a : α) (f : α → Except ε β) : (Except.ok a >>= f) = f a := rfl

@[simp] theorem error_bind (e : ε) (f : α → Except ε β) :
    ((Except.error e : Except ε α) >>= f) = .error e := rfl

@[simp] theorem map_ok (f : α → β) (a : α) : (Except.ok a : Except ε α).map f = .ok (f a) := rfl

@[simp] theorem map_error (f : α → β) (e : ε) :
    (Except.error e : Except ε α).map f = .error e := rfl

theorem bind_eq_ok_iff {x : Except ε α} {f : α → Except ε β} {b : β} :
    x >>= f = .ok b ↔ ∃ a, x = .ok a ∧ f a = .ok b := by
  cases x <;> simp

theorem map_eq_ok_iff {x : Except ε α} {f : α → β} {b : β} :
    x.map f = .ok b ↔ ∃ a, x = .ok a ∧ f a = b := by
  cases x <;> simp

theorem map_eq_error_iff {x : Except ε α} {f : α → β} {e : ε} :
    x.map f = .error e ↔ x = .error e := by
  cases x <;> simp

theorem map_map (x : Except ε α) (f : α → β) (h : β → γ) :
    (x.map f).map h = x.map fun a => h (f a) := by
  cases x <;> rfl

theorem map_bind (x : Except ε α) (f : α → β) (h : β → Except ε γ) :
    x.map f >>= h = x >>= fun a => h (f a) := by
  cases x <;> rfl

section MapError

variable {ε' : Type} (h : ε → ε')

@[simp] theorem mapError_ok (a : α) : (Except.ok a : Except ε α).mapError h = .ok a := rfl

@[simp] theorem mapError_error (e : ε) :
    (Except.error e : Except ε α).mapError h = .error (h e) := rfl

theorem mapError_map (x : Except ε α) (f : α → β) :
    (x.map f).mapError h = (x.mapError h).map f := by
  cases x <;> rfl

theorem mapError_bind (x : Except ε α) (f : α → Except ε β) :
    (x >>= f).mapError h = x.mapError h >>= fun a => (f a).mapError h := by
  cases x <;> rfl

end MapError

/-! ## How a chain concludes -/

/-- It ends with a result of which `P` holds, or with an error of which `Q` holds. -/
inductive Concludes (P : α → Prop) (Q : ε → Prop) : Except ε α → Prop
  | ok {a : α} (result : P a) : Concludes P Q (.ok a)
  | error {e : ε} (fault : Q e) : Concludes P Q (.error e)

namespace Concludes

variable {P P' : α → Prop} {Q Q' : ε → Prop} {R : β → Prop} {x : Except ε α}

theorem of_eq_ok (h : Concludes P Q x) {a : α} (hx : x = .ok a) : P a := by
  subst hx
  cases h with
  | ok result => exact result

theorem of_eq_error (h : Concludes P Q x) {e : ε} (hx : x = .error e) : Q e := by
  subst hx
  cases h with
  | error fault => exact fault

theorem imp (h : Concludes P Q x) (hP : ∀ a, P a → P' a) (hQ : ∀ e, Q e → Q' e) : Concludes P' Q' x := by
  cases h with
  | ok result => exact .ok (hP _ result)
  | error fault => exact .error (hQ _ fault)

theorem bind (h : Concludes P Q x) {f : α → Except ε β} (hf : ∀ a, P a → Concludes R Q (f a)) :
    Concludes R Q (x >>= f) := by
  cases h with
  | ok result => exact hf _ result
  | error fault => exact .error fault

theorem map (h : Concludes P Q x) {f : α → β} (hf : ∀ a, P a → R (f a)) : Concludes R Q (x.map f) := by
  cases h with
  | ok result => exact .ok (hf _ result)
  | error fault => exact .error fault

/-- **What each step of a run keeps, the run keeps.** -/
theorem foldlM {as : List α} {f : β → α → Except ε β}
    (hf : ∀ b, R b → ∀ a ∈ as, Concludes R Q (f b a)) {b : β} (hb : R b) :
    Concludes R Q (as.foldlM f b) := by
  induction as generalizing b with
  | nil => exact .ok hb
  | cons a as ih =>
    rw [List.foldlM_cons]
    exact (hf b hb a (by simp)).bind fun b hb => ih (fun b hb a ha => hf b hb a (by simp [ha])) hb

end Concludes

/-- Whatever its errors are, it has no result but one of which `P` holds. -/
abbrev Ensures (P : α → Prop) (x : Except ε α) : Prop := Concludes P (fun _ => True) x

@[simp] theorem concludes_ok_iff {P : α → Prop} {Q : ε → Prop} {a : α} :
    Concludes P Q (.ok a) ↔ P a := ⟨fun h => h.of_eq_ok rfl, .ok⟩

/-! ## Two chains -/

/-- Both steps fail, and with the same error, or both succeed, and with related results. -/
inductive Alike (R : α → β → Prop) : Except ε α → Except ε β → Prop
  | ok {a : α} {b : β} (related : R a b) : Alike R (.ok a) (.ok b)
  | error (e : ε) : Alike R (.error e) (.error e)

namespace Alike

variable {δ : Type} {R : α → β → Prop} {S : γ → δ → Prop} {x : Except ε α} {y : Except ε β}

theorem bind (h : Alike R x y) {f : α → Except ε γ} {f' : β → Except ε δ}
    (hf : ∀ a b, R a b → Alike S (f a) (f' b)) : Alike S (x >>= f) (y >>= f') := by
  cases h with
  | ok hab => exact hf _ _ hab
  | error e => exact .error e

theorem map (h : Alike R x y) {f : α → γ} {f' : β → δ} (hf : ∀ a b, R a b → S (f a) (f' b)) :
    Alike S (x.map f) (y.map f') := by
  cases h with
  | ok hab => exact .ok (hf _ _ hab)
  | error e => exact .error e

theorem eq_error_iff (h : Alike R x y) {e : ε} : x = .error e ↔ y = .error e := by
  cases h with
  | ok _ => exact ⟨nofun, nofun⟩
  | error e' => simp

theorem exists_ok (h : Alike R x y) {b : β} (hy : y = .ok b) : ∃ a, x = .ok a ∧ R a b := by
  subst hy
  cases h with
  | ok hab => exact ⟨_, rfl, hab⟩

/-- What ends in one way ends alike. -/
theorem of_eq {R : α → α → Prop} (hR : ∀ a, R a a) {x y : Except ε α} (h : x = y) :
    Alike R x y := by
  subst h
  cases x with
  | ok a => exact .ok (hR a)
  | error e => exact .error e

end Alike

end Reckon
