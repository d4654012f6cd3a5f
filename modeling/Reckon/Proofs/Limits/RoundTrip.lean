import Mathlib
import Reckon.Limits.Document
import Reckon.Limits.Overrides
import Reckon.Proofs.Decimal.Written
import Reckon.Proofs.Grammar.Marks
import Reckon.Proofs.Number.Reading
import Reckon.Proofs.Text.Trimmed

/-!
# Proofs/Limits/RoundTrip — limits that are written and read back

Limits are written as a document, or as texts that override those of a base.  **Either way the limits
that are read are those that were written** (`Limits.ofDocument?_toDocument`,
`Limits.Spells.withOverrides_eq_ok`).  `Limits.WritesCount` and `Limits.WritesBound` say which texts
are limits.  The first text that is none is the error (`Limits.withOverrides_eq_error_iff`); without
one, each limit is that of its text, or of the base if it has no text
(`Limits.withOverrides_eq_ok_iff`).
-/

namespace Reckon.Limits

/-! ## Documents -/

theorem countOfEntry?_entryOfCount {n : Nat} (h : n < 2 ^ 64) :
    countOfEntry? (entryOfCount n) = some n := by
  have hrange : 0 ≤ (n : Int) ∧ (n : Int) < 2 ^ 64 := by omega
  rw [entryOfCount, countOfEntry?, if_pos hrange, Int.toNat_natCast]

theorem boundOfEntry?_entryOfBound (bound : Option Int) :
    boundOfEntry? (entryOfBound bound) = some bound := by
  cases bound with
  | none => rfl
  | some n => rw [entryOfBound, boundOfEntry?, Decimal.integer?_signedNumeral, Option.map_some]

/-- An entry of a list of entries is mentioned in the document of the list. -/
theorem mentioned?_ofList {entries : List (String × Entry)}
    (hkeys : entries.Pairwise fun a b => ¬ compare a.1 b.1 = .eq) (key : String) (entry : Entry)
    (hmem : (key, entry) ∈ entries) {β : Type} (read? : Entry → Option β) (otherwise : β) :
    mentioned? (.ofList entries) key read? otherwise = read? entry := by
  have hfound : (Std.TreeMap.ofList entries compare)[key]? = some entry :=
    Std.TreeMap.getElem?_ofList_of_mem Std.ReflCmp.compare_self hkeys hmem
  rw [mentioned?, hfound]

/-- **Limits are those that their document stands for.** -/
theorem ofDocument?_toDocument {limits : Limits} (hline : limits.lineLimit < 2 ^ 64)
    (hvariables : limits.maxVariables < 2 ^ 64) : ofDocument? limits.toDocument = some limits := by
  rw [ofDocument?, toDocument]
  have hkeys : List.Pairwise (fun a b : String × Entry => ¬ compare a.1 b.1 = .eq)
      [("line_limit", entryOfCount limits.lineLimit),
       ("operand_limit", entryOfBound limits.operandLimit),
       ("pow_union_limit", entryOfBound limits.powerUnionLimit),
       ("pow_each_limit", entryOfBound limits.powerEachLimit),
       ("factorial_limit", entryOfBound limits.factorialLimit),
       ("max_vars", entryOfCount limits.maxVariables)] := by
    simp
  rw [mentioned?_ofList hkeys "line_limit" (entryOfCount limits.lineLimit) (by simp),
    mentioned?_ofList hkeys "operand_limit" (entryOfBound limits.operandLimit) (by simp),
    mentioned?_ofList hkeys "pow_union_limit" (entryOfBound limits.powerUnionLimit) (by simp),
    mentioned?_ofList hkeys "pow_each_limit" (entryOfBound limits.powerEachLimit) (by simp),
    mentioned?_ofList hkeys "factorial_limit" (entryOfBound limits.factorialLimit) (by simp),
    mentioned?_ofList hkeys "max_vars" (entryOfCount limits.maxVariables) (by simp),
    countOfEntry?_entryOfCount hline, countOfEntry?_entryOfCount hvariables]
  simp only [boundOfEntry?_entryOfBound]
  rfl

/-! ## Texts of limits -/

/-- The text is the count, below `2 ^ 64` and with white space around it. -/
def WritesCount (n : Nat) (text : String) : Prop :=
  ∃ cs, Text.HasCore text.toList cs ∧ Decimal.WritesNatural n cs ∧ n < 2 ^ 64

/-- The text is the bound on operands, with white space around it: an integer, or `none` in any
letter case. -/
def WritesBound : Option Int → String → Prop
  | none, text => ∃ cs, Text.HasCore text.toList cs ∧ cs.map Char.toLower = "none".toList
  | some n, text => ∃ cs, Text.HasCore text.toList cs ∧ Decimal.WritesInteger n cs

theorem isBlank_of_isDigit {c : Char} (h : c.isDigit = true) : Text.isBlank c = false := by
  obtain ⟨hlo, hhi⟩ := Token.toNat_of_isDigit h
  exact Text.isBlank_eq_false (by omega) (by omega)

theorem isBlank_of_writesNatural {n : Nat} {cs : List Char} (h : Decimal.WritesNatural n cs) :
    ∀ c ∈ cs, Text.isBlank c = false := by
  obtain ⟨plus, digits, rfl, hplus, -, hdigits, -⟩ := h
  refine List.forall_mem_append.2 ⟨?_, fun c hc => isBlank_of_isDigit (hdigits c hc)⟩
  rcases hplus with rfl | rfl
  · nofun
  · exact List.forall_mem_singleton.2 rfl

theorem isBlank_of_writesInteger {n : Int} {cs : List Char} (h : Decimal.WritesInteger n cs) :
    ∀ c ∈ cs, Text.isBlank c = false := by
  obtain ⟨sign, _, m, rfl, ⟨d, ds, rfl, hd, hds, -⟩, hsign⟩ := h
  refine List.forall_mem_append.2 ⟨?_, List.forall_mem_cons.2 ⟨isBlank_of_isDigit hd, ?_⟩⟩
  · rcases hsign with ⟨rfl | rfl, -⟩ | ⟨rfl, -⟩
    · nofun
    · exact List.forall_mem_singleton.2 rfl
    · exact List.forall_mem_singleton.2 rfl
  · rintro c hc
    rcases hds c hc with hc | rfl
    · exact isBlank_of_isDigit hc
    · rfl

theorem toLower_cases (c : Char) : 65 ≤ c.toNat ∧ c.toNat ≤ 90 ∨ c.toLower = c := by
  rw [Char.toLower]
  split
  · next h => exact .inl ⟨UInt32.le_iff_toNat_le.1 h.1, UInt32.le_iff_toNat_le.1 h.2⟩
  · exact .inr rfl

/-- In any letter case, `none` is made of letters. -/
theorem toNat_of_map_toLower {cs : List Char} (h : cs.map Char.toLower = "none".toList) :
    ∀ c ∈ cs, 65 ≤ c.toNat ∧ c.toNat ≤ 122 := by
  intro c hc
  rcases toLower_cases c with hupper | hlower
  · omega
  · have hletter : c ∈ "none".toList := by
      rw [← hlower, ← h]
      exact List.mem_map_of_mem hc
    have hletters : ∀ d ∈ "none".toList, 65 ≤ d.toNat ∧ d.toNat ≤ 122 := by simp
    exact hletters c hletter

theorem isBlank_of_map_toLower {cs : List Char} (h : cs.map Char.toLower = "none".toList) :
    ∀ c ∈ cs, Text.isBlank c = false := by
  intro c hc
  obtain ⟨hlo, hhi⟩ := toNat_of_map_toLower h c hc
  exact Text.isBlank_eq_false (by omega) (by omega)

/-- **The texts that are read as counts are those that are counts.** -/
theorem readCount?_eq_some_iff {n : Nat} {text : String} :
    readCount? (Text.trimBlank text.toList) = some n ↔ WritesCount n text := by
  have hread : ∀ cs, readCount? cs = some n ↔ Decimal.WritesNatural n cs ∧ n < 2 ^ 64 := by
    intro cs
    rw [← Decimal.unsigned_eq_ok_iff, readCount?]
    cases Decimal.unsigned 64 cs <;> simp [Except.toOption]
  rw [hread]
  exact Text.trimBlank_iff (P := fun cs => Decimal.WritesNatural n cs ∧ n < 2 ^ 64)
    fun cs h => isBlank_of_writesNatural h.1

/-- **The texts that are read as bounds on operands are those that are bounds.** -/
theorem readBound?_eq_some_iff {bound : Option Int} {text : String} :
    readBound? (Text.trimBlank text.toList) = some bound ↔ WritesBound bound text := by
  cases bound with
  | none =>
    have hread : ∀ cs, readBound? cs = some none ↔ cs.map Char.toLower = "none".toList := by
      intro cs
      rw [readBound?]
      split
      · next h => exact ⟨fun _ => h, fun _ => rfl⟩
      · next h => exact ⟨fun hsome => by simp at hsome, fun hnone => absurd hnone h⟩
    rw [hread]
    exact Text.trimBlank_iff fun cs => isBlank_of_map_toLower
  | some n =>
    have hread : ∀ cs, readBound? cs = some (some n) ↔ Decimal.WritesInteger n cs := by
      intro cs
      rw [readBound?]
      split
      · next h =>
        -- `none` has no digit
        simp only [Option.some.injEq, reduceCtorEq, false_iff]
        rintro ⟨sign, _, m, rfl, ⟨d, ds, rfl, hd, -⟩, -⟩
        have hdigit := Token.toNat_of_isDigit hd
        have hletter := toNat_of_map_toLower h d (by simp)
        omega
      · simp [Decimal.integer?_eq_some_iff]
    rw [hread]
    exact Text.trimBlank_iff fun cs => isBlank_of_writesInteger

/-! ## Limits overridden by texts -/

section Overrides

variable (given : String → Option String)

/-- The value is that of the text given for the key, or else the one that holds without it. -/
def Overrides {β : Type} (key : String) (Writes : β → String → Prop) (otherwise b : β) : Prop :=
  match given key with
  | none => b = otherwise
  | some text => Writes b text

/-- Each limit is that of the text given for it, or else that of the base. -/
structure OverriddenTo (base limits : Limits) : Prop where
  lineLimit : Overrides given lineLimitKey WritesCount base.lineLimit limits.lineLimit
  operandLimit : Overrides given operandLimitKey WritesBound base.operandLimit limits.operandLimit
  powerUnionLimit :
    Overrides given powerUnionLimitKey WritesBound base.powerUnionLimit limits.powerUnionLimit
  powerEachLimit :
    Overrides given powerEachLimitKey WritesBound base.powerEachLimit limits.powerEachLimit
  factorialLimit :
    Overrides given factorialLimitKey WritesBound base.factorialLimit limits.factorialLimit
  maxVariables : Overrides given maxVariablesKey WritesCount base.maxVariables limits.maxVariables

/-- What may be overridden, in the order in which it is read: a key and which texts for it are
limits. -/
def overridable : List (String × (String → Prop)) :=
  [(lineLimitKey, fun text => ∃ n, WritesCount n text),
   (operandLimitKey, fun text => ∃ bound, WritesBound bound text),
   (powerUnionLimitKey, fun text => ∃ bound, WritesBound bound text),
   (powerEachLimitKey, fun text => ∃ bound, WritesBound bound text),
   (factorialLimitKey, fun text => ∃ bound, WritesBound bound text),
   (maxVariablesKey, fun text => ∃ n, WritesCount n text)]

/-- The error names the first key for which a text is given that is no limit, and this text. -/
inductive FirstUnread : List (String × (String → Prop)) → ConfigError → Prop
  | here {key value : String} {Reads : String → Prop} {ps : List (String × (String → Prop))}
      (given_eq : given key = some value) (unread : ¬ Reads value) :
      FirstUnread ((key, Reads) :: ps) ⟨key, value⟩
  | later {key : String} {Reads : String → Prop} {ps : List (String × (String → Prop))}
      {e : ConfigError} (read : ∀ value, given key = some value → Reads value)
      (rest : FirstUnread ps e) : FirstUnread ((key, Reads) :: ps) e

variable {given} {β : Type} {key text : String} {read? : List Char → Option β}
  {Writes : β → String → Prop} {otherwise b : β}

theorem overridden_of_absent (h : given key = none) :
    overridden given key read? otherwise = .ok otherwise := by
  rw [overridden, h]

theorem overridden_of_read (h : given key = some text)
    (hvalue : read? (Text.trimBlank text.toList) = some b) :
    overridden given key read? otherwise = .ok b := by
  simp only [overridden, h, hvalue]

theorem overridden_of_unread (h : given key = some text)
    (hvalue : read? (Text.trimBlank text.toList) = none) :
    overridden given key read? otherwise = .error ⟨key, text⟩ := by
  simp only [overridden, h, hvalue]

theorem overridden_eq_ok_iff
    (hread : ∀ b text, read? (Text.trimBlank text.toList) = some b ↔ Writes b text) :
    overridden given key read? otherwise = .ok b ↔ Overrides given key Writes otherwise b := by
  rw [Overrides]
  cases hgiven : given key with
  | none => rw [overridden_of_absent hgiven, Except.ok.injEq, eq_comm]
  | some text =>
    dsimp only
    rw [← hread]
    cases hvalue : read? (Text.trimBlank text.toList) with
    | none => simp [overridden_of_unread hgiven hvalue]
    | some b' => simp [overridden_of_read hgiven hvalue]

/-- **One limit more is read**: the text for it is the first that is no limit, or else those after it
decide. -/
theorem overridden_bind_eq_error_iff {γ : Type} {f : β → Except ConfigError γ}
    {ps : List (String × (String → Prop))} {e : ConfigError}
    (hread : ∀ b text, read? (Text.trimBlank text.toList) = some b ↔ Writes b text)
    (hf : ∀ b, f b = .error e ↔ FirstUnread given ps e) :
    overridden given key read? otherwise >>= f = .error e ↔
      FirstUnread given ((key, fun text => ∃ b, Writes b text) :: ps) e := by
  cases hgiven : given key with
  | none =>
    rw [overridden_of_absent hgiven, ok_bind, hf]
    constructor
    · exact fun h => .later (by simp [hgiven]) h
    · rintro (⟨h, -⟩ | ⟨-, h⟩)
      · rw [hgiven] at h
        cases h
      · exact h
  | some text =>
    have heq : ∀ value, given key = some value → text = value := fun value h =>
      Option.some.inj (hgiven.symm.trans h)
    cases hvalue : read? (Text.trimBlank text.toList) with
    | none =>
      have hunread : ¬ ∃ b, Writes b text := by
        rintro ⟨b, hb⟩
        rw [(hread b text).2 hb] at hvalue
        cases hvalue
      rw [overridden_of_unread hgiven hvalue, error_bind, Except.error.injEq]
      constructor
      · rintro rfl
        exact .here hgiven hunread
      · rintro (⟨h, -⟩ | ⟨h, -⟩)
        · rw [heq _ h]
        · exact absurd (h text hgiven) hunread
    | some b =>
      have hwrites : ∃ b, Writes b text := ⟨b, (hread b text).1 hvalue⟩
      rw [overridden_of_read hgiven hvalue, ok_bind, hf]
      constructor
      · exact fun h => .later (fun value hkey => heq value hkey ▸ hwrites) h
      · rintro (⟨h, hunread⟩ | ⟨-, h⟩)
        · exact absurd (heq _ h ▸ hwrites) hunread
        · exact h

/-- Some text is no limit iff there is a first one. -/
theorem exists_firstUnread_iff {ps : List (String × (String → Prop))} :
    (∃ e, FirstUnread given ps e) ↔ ∃ p ∈ ps, ∃ text, given p.1 = some text ∧ ¬ p.2 text := by
  induction ps with
  | nil => exact ⟨fun ⟨_, h⟩ => (nomatch h), by simp⟩
  | cons p ps ih =>
    obtain ⟨key, Reads⟩ := p
    simp only [List.mem_cons, exists_eq_or_imp, ← ih]
    constructor
    · rintro ⟨e, ⟨hgiven, hunread⟩ | ⟨-, h⟩⟩
      · exact .inl ⟨_, hgiven, hunread⟩
      · exact .inr ⟨e, h⟩
    · rintro (⟨text, hgiven, hunread⟩ | ⟨e, h⟩)
      · exact ⟨_, .here hgiven hunread⟩
      · by_cases hread : ∀ value, given key = some value → Reads value
        · exact ⟨e, .later hread h⟩
        · obtain ⟨value, hvalue⟩ := not_forall.1 hread
          obtain ⟨hgiven, hunread⟩ := Classical.not_imp.1 hvalue
          exact ⟨_, .here hgiven hunread⟩

variable {base limits : Limits}

/-- **Limits are overridden one by one.** -/
theorem withOverrides_eq_ok_iff :
    base.withOverrides given = .ok limits ↔ OverriddenTo given base limits := by
  simp only [withOverrides, bind_eq_ok_iff, overridden_eq_ok_iff @readCount?_eq_some_iff,
    overridden_eq_ok_iff @readBound?_eq_some_iff]
  constructor
  · rintro ⟨_, hline, _, hoperand, _, hunion, _, heach, _, hfactorial, _, hvariables, ⟨⟩⟩
    exact ⟨hline, hoperand, hunion, heach, hfactorial, hvariables⟩
  · rintro ⟨hline, hoperand, hunion, heach, hfactorial, hvariables⟩
    exact ⟨_, hline, _, hoperand, _, hunion, _, heach, _, hfactorial, _, hvariables, rfl⟩

/-- **The first text that is no limit is the error.** -/
theorem withOverrides_eq_error_iff {e : ConfigError} :
    base.withOverrides given = .error e ↔ FirstUnread given overridable e := by
  refine overridden_bind_eq_error_iff @readCount?_eq_some_iff fun _ => ?_
  refine overridden_bind_eq_error_iff @readBound?_eq_some_iff fun _ => ?_
  refine overridden_bind_eq_error_iff @readBound?_eq_some_iff fun _ => ?_
  refine overridden_bind_eq_error_iff @readBound?_eq_some_iff fun _ => ?_
  refine overridden_bind_eq_error_iff @readBound?_eq_some_iff fun _ => ?_
  refine overridden_bind_eq_error_iff @readCount?_eq_some_iff fun _ => ?_
  exact ⟨nofun, nofun⟩

end Overrides

/-! ## Limits spelled out -/

/-- The text is the numeral of the count, with white space around it. -/
def SpellsCount (n : Nat) (text : String) : Prop :=
  Text.HasCore text.toList (Decimal.numeral n).toList

/-- The text is the numeral of the bound on operands, or `none` in any letter case for no bound, with
white space around it. -/
def SpellsBound : Option Int → String → Prop
  | none, text => ∃ cs, Text.HasCore text.toList cs ∧ cs.map Char.toLower = "none".toList
  | some n, text => Text.HasCore text.toList (Decimal.signedNumeral n).toList

/-- A text is given for every limit and spells it. -/
structure Spells (given : String → Option String) (limits : Limits) : Prop where
  lineLimit : ∃ text, given lineLimitKey = some text ∧ SpellsCount limits.lineLimit text
  operandLimit : ∃ text, given operandLimitKey = some text ∧ SpellsBound limits.operandLimit text
  powerUnionLimit :
    ∃ text, given powerUnionLimitKey = some text ∧ SpellsBound limits.powerUnionLimit text
  powerEachLimit :
    ∃ text, given powerEachLimitKey = some text ∧ SpellsBound limits.powerEachLimit text
  factorialLimit :
    ∃ text, given factorialLimitKey = some text ∧ SpellsBound limits.factorialLimit text
  maxVariables : ∃ text, given maxVariablesKey = some text ∧ SpellsCount limits.maxVariables text

/-- A numeral is a text of its number. -/
theorem SpellsCount.writesCount {n : Nat} {text : String} (h : SpellsCount n text)
    (hn : n < 2 ^ 64) : WritesCount n text := by
  have hwrites : Decimal.WritesNatural n (Decimal.numeral n).toList := by
    rw [Decimal.toList_numeral]
    exact ⟨[], _, rfl, .inl rfl, Nat.toDigits_ne_nil, fun d hd => Decimal.isDigit_of_mem_toDigits hd,
      Nat.ofDigitChars_ten_toDigits.symm⟩
  exact ⟨_, h, hwrites, hn⟩

theorem SpellsBound.writesBound {bound : Option Int} {text : String} (h : SpellsBound bound text) :
    WritesBound bound text := by
  cases bound with
  | none => exact h
  | some n => exact ⟨_, h, Decimal.integer?_eq_some_iff.1 (Decimal.integer?_signedNumeral n)⟩

theorem Overrides.of_given {given : String → Option String} {β : Type} {key : String}
    {Writes : β → String → Prop} {otherwise b : β}
    (h : ∃ text, given key = some text ∧ Writes b text) : Overrides given key Writes otherwise b := by
  obtain ⟨text, hgiven, hwrites⟩ := h
  rw [Overrides, hgiven]
  exact hwrites

/-- **Limits that are spelled out override all of any base.** -/
theorem Spells.withOverrides_eq_ok {given : String → Option String} {limits : Limits}
    (h : Spells given limits) (hline : limits.lineLimit < 2 ^ 64)
    (hvariables : limits.maxVariables < 2 ^ 64) (base : Limits) :
    base.withOverrides given = .ok limits := by
  have hcount : ∀ {key : String} {n : Nat}, n < 2 ^ 64 →
      (∃ text, given key = some text ∧ SpellsCount n text) →
        ∃ text, given key = some text ∧ WritesCount n text :=
    fun hn ⟨text, hgiven, htext⟩ => ⟨text, hgiven, htext.writesCount hn⟩
  have hbound : ∀ {key : String} {bound : Option Int},
      (∃ text, given key = some text ∧ SpellsBound bound text) →
        ∃ text, given key = some text ∧ WritesBound bound text :=
    fun ⟨text, hgiven, htext⟩ => ⟨text, hgiven, htext.writesBound⟩
  exact withOverrides_eq_ok_iff.2
    { lineLimit := .of_given (hcount hline h.lineLimit)
      operandLimit := .of_given (hbound h.operandLimit)
      powerUnionLimit := .of_given (hbound h.powerUnionLimit)
      powerEachLimit := .of_given (hbound h.powerEachLimit)
      factorialLimit := .of_given (hbound h.factorialLimit)
      maxVariables := .of_given (hcount hvariables h.maxVariables) }

/-- **Limits survive both ways of writing them, and what is no limit is reported.**  Limits are those
that their document stands for, and those that come of any base where their texts are given, with white
space around them and `none` in any letter case.  Whatever the base is and whatever texts are given,
overriding fails iff some text is no limit; the error is the first such key with its whole text; and
otherwise each limit is that of its text if one is given, or else that of the base. -/
theorem limits_round_trip :
    (∀ limits : Limits, limits.lineLimit < 2 ^ 64 → limits.maxVariables < 2 ^ 64 →
        ofDocument? limits.toDocument = some limits ∧
          ∀ (base : Limits) (given : String → Option String), Spells given limits →
            base.withOverrides given = .ok limits) ∧
      ∀ (base : Limits) (given : String → Option String),
        ((∃ e, base.withOverrides given = .error e) ↔
          ∃ p ∈ overridable, ∃ text, given p.1 = some text ∧ ¬ p.2 text) ∧
        (∀ e, base.withOverrides given = .error e ↔ FirstUnread given overridable e) ∧
        ∀ limits, base.withOverrides given = .ok limits ↔ OverriddenTo given base limits := by
  refine ⟨fun limits hline hvariables => ⟨ofDocument?_toDocument hline hvariables,
    fun base given h => h.withOverrides_eq_ok hline hvariables base⟩, fun base given => ?_⟩
  refine ⟨?_, fun e => withOverrides_eq_error_iff, fun limits => withOverrides_eq_ok_iff⟩
  simp only [withOverrides_eq_error_iff]
  exact exists_firstUnread_iff

/-- Limits of all kinds: counts, bounds of either sign, and none. -/
private def mixed : Limits where
  lineLimit := 20
  operandLimit := some (-5)
  powerUnionLimit := none
  powerEachLimit := some 12
  factorialLimit := none
  maxVariables := 3

/-- The texts of these limits, some with white space or in capitals. -/
private def mixedTexts (key : String) : Option String :=
  if key = lineLimitKey then some " 20"
  else if key = operandLimitKey then some "-5\t"
  else if key = powerUnionLimitKey then some "none"
  else if key = powerEachLimitKey then some "12"
  else if key = factorialLimitKey then some " NoNe "
  else some "3\n"

theorem limits_round_trip_mixed :
    mixed.lineLimit < 2 ^ 64 ∧ mixed.maxVariables < 2 ^ 64 ∧ Spells mixedTexts mixed ∧
      ofDocument? mixed.toDocument = some mixed ∧
        ({} : Limits).withOverrides mixedTexts = .ok mixed := by
  have hspace : ∀ c ∈ [' '], Text.isBlank c = true := List.forall_mem_singleton.2 rfl
  have htab : ∀ c ∈ ['\t'], Text.isBlank c = true := List.forall_mem_singleton.2 rfl
  have hnewline : ∀ c ∈ ['\n'], Text.isBlank c = true := List.forall_mem_singleton.2 rfl
  have hspells : Spells mixedTexts mixed :=
    { lineLimit := ⟨_, rfl, [' '], [], by decide +kernel, hspace, nofun⟩
      operandLimit := ⟨_, rfl, [], ['\t'], by decide +kernel, nofun, htab⟩
      powerUnionLimit := ⟨_, rfl, "none".toList, ⟨[], [], rfl, nofun, nofun⟩, by decide⟩
      powerEachLimit := ⟨_, rfl, [], [], by decide +kernel, nofun, nofun⟩
      factorialLimit := ⟨_, rfl, "NoNe".toList, ⟨[' '], [' '], by decide, hspace, hspace⟩,
        by decide⟩
      maxVariables := ⟨_, rfl, [], ['\n'], by decide +kernel, nofun, hnewline⟩ }
  obtain ⟨hdocument, hoverrides⟩ := limits_round_trip.1 mixed (by decide) (by decide)
  exact ⟨by decide, by decide, hspells, hdocument, hoverrides {} mixedTexts hspells⟩

end Reckon.Limits
