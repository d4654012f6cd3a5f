import Reckon.Proofs.Grammar.Agreement
import Reckon.Proofs.Grammar.Lookup

/-!
# Proofs/Grammar/Standing — the last word on each thing

A declaration stands if no later one is about the same thing.  **A declared grammar holds what stands
and nothing else** (`Grammar.upholds_ofDeclarations`), with the last limiter for all operations,
wherever that is declared.  So the order of declarations counts among those of one thing alone
(`Grammar.agreesWith_of_topics`), and neighbours that are about different things may change places
(`Grammar.last_declaration_stands`).
-/

namespace Reckon

variable {α β : Type}

namespace Declaration

/-! ## What a declaration is about -/

/-- What a declaration may be about. -/
inductive Topic where
  | prefixOp (symbol : Char)
  | infixOp (symbol : Char)
  | function (name : String)
  | constant (name : String)
  | freeVariables
  | defaultLimiter
  | separator
  | braces
  | whitespace
deriving DecidableEq, Repr

/-- What the declaration is about. -/
def topic : Declaration α → Topic
  | .prefixOp symbol .. => .prefixOp symbol
  | .infixOp symbol .. => .infixOp symbol
  | .function name .. => .function name
  | .constant name _ => .constant name
  | .freeVariables _ => .freeVariables
  | .defaultLimiter _ => .defaultLimiter
  | .separator _ => .separator
  | .braces .. => .braces
  | .whitespace _ => .whitespace

/-- No declaration of the list is about the topic. -/
def Unsaid (ds : List (Declaration α)) (t : Topic) : Prop := ∀ d ∈ ds, d.topic ≠ t

/-- The declaration is in the list, and no later one is about the same. -/
def Stands (ds : List (Declaration α)) (d : Declaration α) : Prop :=
  ∃ before after, ds = before ++ d :: after ∧ Unsaid after d.topic

/-- The limiter of an operation that brings `own`: that one if it is one, or else the one that stands
for all operations, or else none at all. -/
inductive Guards (ds : List (Declaration α)) : Option (Limiter α) → Limiter α → Prop
  | own (limiter : Limiter α) : Guards ds (some limiter) limiter
  | shared {limiter : Limiter α} (stands : Stands ds (.defaultLimiter limiter)) :
      Guards ds none limiter
  | unbounded (unsaid : Unsaid ds .defaultLimiter) : Guards ds none .unbounded

/-! ## Finding what stands -/

/-- What `stated` reads off a declaration is about the topic: it reads something off those that are
about it, and nothing off any other. -/
def ReadsTopic (stated : Declaration α → Option β) (t : Topic) : Prop :=
  ∀ d, stated d = none ↔ d.topic ≠ t

namespace ReadsTopic

variable {stated : Declaration α → Option β} {t : Topic} {ds : List (Declaration α)} {b : β}

theorem topic_eq (h : ReadsTopic stated t) {d : Declaration α} (hd : stated d = some b) :
    d.topic = t := by
  refine Decidable.of_not_not fun hne => ?_
  rw [(h d).2 hne] at hd
  cases hd

/-- What is found last among the declarations is read off the one that stands. -/
theorem findSome?_eq_some_iff (h : ReadsTopic stated t) :
    ds.reverse.findSome? stated = some b ↔ ∃ d, Stands ds d ∧ stated d = some b := by
  rw [List.findSome?_eq_some_iff]
  constructor
  · rintro ⟨after, d, before, hsplit, hd, hnone⟩
    refine ⟨d, ⟨before.reverse, after.reverse, ?_, fun x hx => ?_⟩, hd⟩
    · rw [← List.reverse_reverse ds, hsplit]
      simp
    · rw [h.topic_eq hd]
      exact (h x).1 (hnone x (List.mem_reverse.1 hx))
  · rintro ⟨d, ⟨before, after, rfl, hunsaid⟩, hd⟩
    refine ⟨after.reverse, d, before.reverse, by simp, hd, fun x hx => ?_⟩
    rw [h.topic_eq hd] at hunsaid
    exact (h x).2 (hunsaid x (List.mem_reverse.1 hx))

theorem findSome?_eq_none_iff (h : ReadsTopic stated t) :
    ds.reverse.findSome? stated = none ↔ Unsaid ds t := by
  simp only [List.findSome?_eq_none_iff, List.mem_reverse, h _, Unsaid]

/-- The last declaration of a topic, or else what holds without one. -/
theorem stands_or_unsaid (h : ReadsTopic stated t) (said : β → Declaration α)
    (hsaid : ∀ d b, stated d = some b → d = said b) {v otherwise : β}
    (heq : some v = (ds.reverse.findSome? stated).or (some otherwise)) :
    Stands ds (said v) ∨ Unsaid ds t ∧ v = otherwise := by
  cases hfound : ds.reverse.findSome? stated with
  | none =>
    rw [hfound] at heq
    exact .inr ⟨h.findSome?_eq_none_iff.1 hfound, Option.some.inj heq⟩
  | some w =>
    rw [hfound] at heq
    obtain rfl : v = w := Option.some.inj heq
    obtain ⟨d, hstands, hd⟩ := h.findSome?_eq_some_iff.1 hfound
    obtain rfl := hsaid d v hd
    exact .inl hstands

/-- Declarations of other topics do not count. -/
theorem findSome?_filter (h : ReadsTopic stated t) :
    (ds.filter fun d => d.topic = t).reverse.findSome? stated = ds.reverse.findSome? stated := by
  induction ds with
  | nil => rfl
  | cons d ds ih =>
    rw [List.filter_cons, List.reverse_cons, List.findSome?_append, ← ih]
    split
    · rw [List.reverse_cons, List.findSome?_append]
    · next hne =>
      have hnone : stated d = none := (h d).2 (by simpa using hne)
      simp [hnone]

end ReadsTopic

/-! ## What is read off a declaration -/

/-- The default value that is declared for a name. -/
def constantAt? (name : String) : Declaration α → Option α
  | .constant other value => if other = name then some value else none
  | _ => none

/-- Whether other variables are allowed, if that is declared. -/
def freeVariables? : Declaration α → Option Bool
  | .freeVariables allowed => some allowed
  | _ => none

/-- The limiter that is declared for all operations. -/
def defaultLimiter? : Declaration α → Option (Limiter α)
  | .defaultLimiter limiter => some limiter
  | _ => none

/-- The separator that is declared. -/
def separator? : Declaration α → Option Char
  | .separator c => some c
  | _ => none

/-- The braces that are declared. -/
def braces? : Declaration α → Option (Char × Char)
  | .braces opening closing => some (opening, closing)
  | _ => none

/-- The white space that is declared. -/
def whitespace? : Declaration α → Option (List Char)
  | .whitespace characters => some characters
  | _ => none

theorem eq_of_constantAt? {name : String} {d : Declaration α}
    {value : α} (h : d.constantAt? name = some value) :
    d = .constant name value := by
  cases d with
  | constant other value' =>
    simp only [constantAt?, Option.ite_none_right_eq_some, Option.some.injEq] at h
    obtain ⟨rfl, rfl⟩ := h
    rfl
  | _ => cases h

variable (limiter : Limiter α) (c : Char) (name : String)

theorem readsTopic_prefixAt? : ReadsTopic (prefixAt? limiter c) (.prefixOp c) := by
  rintro (_ | _ | _ | _ | _ | _ | _ | _ | _) <;> simp [prefixAt?, topic]

theorem readsTopic_infixAt? : ReadsTopic (infixAt? limiter c) (.infixOp c) := by
  rintro (_ | _ | _ | _ | _ | _ | _ | _ | _) <;> simp [infixAt?, topic]

theorem readsTopic_functionAt? : ReadsTopic (functionAt? limiter name) (.function name) := by
  rintro (_ | _ | _ | _ | _ | _ | _ | _ | _) <;> simp [functionAt?, topic]

theorem readsTopic_constantAt? : ReadsTopic (constantAt? name : Declaration α → _) (.constant name) := by
  rintro (_ | _ | _ | _ | _ | _ | _ | _ | _) <;> simp [constantAt?, topic]

theorem readsTopic_freeVariables? : ReadsTopic (freeVariables? : Declaration α → _) .freeVariables := by
  rintro (_ | _ | _ | _ | _ | _ | _ | _ | _) <;> simp [freeVariables?, topic]

theorem readsTopic_defaultLimiter? : ReadsTopic (defaultLimiter? (α := α)) .defaultLimiter := by
  rintro (_ | _ | _ | _ | _ | _ | _ | _ | _) <;> simp [defaultLimiter?, topic]

theorem readsTopic_separator? : ReadsTopic (separator? : Declaration α → _) .separator := by
  rintro (_ | _ | _ | _ | _ | _ | _ | _ | _) <;> simp [separator?, topic]

theorem readsTopic_braces? : ReadsTopic (braces? : Declaration α → _) .braces := by
  rintro (_ | _ | _ | _ | _ | _ | _ | _ | _) <;> simp [braces?, topic]

theorem readsTopic_whitespace? : ReadsTopic (whitespace? : Declaration α → _) .whitespace := by
  rintro (_ | _ | _ | _ | _ | _ | _ | _ | _) <;> simp [whitespace?, topic]

/-! ## The limiter for all operations -/

variable {ds : List (Declaration α)}

theorem some_defaultLimiterOf (ds : List (Declaration α)) :
    some (defaultLimiterOf ds) =
      (ds.reverse.findSome? defaultLimiter?).or (some .unbounded) := by
  refine Grammar.look_foldl some defaultLimiter? (fun limiter d => ?_) ds .unbounded
  cases d <;> rfl

/-- **An operation is guarded by its own limiter, or else by the last one that is declared for
all.** -/
theorem guards_iff {own : Option (Limiter α)} {limiter : Limiter α} :
    Guards ds own limiter ↔ limiter = own.getD (defaultLimiterOf ds) := by
  have hdefault := some_defaultLimiterOf ds
  constructor
  · rintro (_ | hstands | hunsaid)
    · rfl
    · rw [readsTopic_defaultLimiter?.findSome?_eq_some_iff.2 ⟨_, hstands, rfl⟩] at hdefault
      exact (Option.some.inj hdefault).symm
    · rw [readsTopic_defaultLimiter?.findSome?_eq_none_iff.2 hunsaid] at hdefault
      exact (Option.some.inj hdefault).symm
  · rintro rfl
    cases own with
    | some own => exact .own own
    | none =>
      have hsaid : ∀ (d : Declaration α) l, d.defaultLimiter? = some l → d = .defaultLimiter l := by
        rintro (_ | _ | _ | _ | _ | _ | _ | _ | _) l <;> simp [defaultLimiter?]
      rcases readsTopic_defaultLimiter?.stands_or_unsaid _ hsaid hdefault with h | ⟨h, hnone⟩
      · exact .shared h
      · rw [Option.getD_none, hnone]
        exact .unbounded h

end Declaration

namespace Grammar

open Declaration

/-! ## What a declared grammar holds -/

/-- The grammar holds what stands among the declarations and nothing else: each glyph and each name is
found with what was declared for it last, and each mark is the one that was declared last, or else
that of the blank grammar. -/
structure Upholds (g : Grammar α) (convert : String → Except ConversionError α)
    (ds : List (Declaration α)) : Prop where
  prefixOperators : ∀ c op, g.prefixOperators.get? c = some op ↔
    ∃ precedence f own limiter, Stands ds (.prefixOp c precedence f own) ∧ Guards ds own limiter ∧
      op = .prefixOf c precedence f limiter
  infixOperators : ∀ c op, g.infixOperators.get? c = some op ↔
    ∃ associativity precedence f own limiter,
      Stands ds (.infixOp c associativity precedence f own) ∧ Guards ds own limiter ∧
        op = .infixOf c associativity precedence f limiter
  functions : ∀ name f, g.functions.get? name = some f ↔
    ∃ native own limiter, Stands ds (.function name native own) ∧ Guards ds own limiter ∧
      f = ⟨name, native, limiter⟩
  defaults : ∀ (name : String) value, g.defaults[name]? = some value ↔
    Stands ds (.constant name value)
  freeVariables : Stands ds (.freeVariables g.freeVariables) ∨
    Unsaid ds .freeVariables ∧ g.freeVariables = false
  separator : Stands ds (.separator g.separator) ∨ Unsaid ds .separator ∧ g.separator = ','
  braces : Stands ds (.braces g.openBrace g.closeBrace) ∨
    Unsaid ds .braces ∧ (g.openBrace, g.closeBrace) = ('(', ')')
  whitespace : Stands ds (.whitespace g.whitespace) ∨
    Unsaid ds .whitespace ∧ g.whitespace = [' ', '\t', '\n']
  convert : g.convert = convert

variable {convert : String → Except ConversionError α} {ds ds' : List (Declaration α)}

theorem constants_ofDeclarations (name : String) :
    (ofDeclarations convert ds).defaults[name]? =
      ds.reverse.findSome? (Declaration.constantAt? name) := by
  refine look_ofDeclarations (fun g => g.defaults[name]?) _ Std.TreeMap.getElem?_emptyc ?_
  intro g d
  cases d with
  | constant other value =>
    simp only [declare, Declaration.constantAt?, Std.TreeMap.getElem?_insert,
      Std.LawfulEqOrd.compare_eq_iff_eq]
    split <;> simp
  | _ => simp [declare, Declaration.constantAt?]

/-- What is set is what was declared last, or else that of the blank grammar. -/
theorem some_ofDeclarations (look : Grammar α → β) (stated : Declaration α → Option β)
    (hstep : ∀ limiter g d, some (look (declare limiter g d)) = (stated d).or (some (look g))) :
    some (look (ofDeclarations convert ds)) =
      (ds.reverse.findSome? stated).or (some (look (blank convert))) :=
  look_foldl (fun g => some (look g)) stated (hstep _) ds _

section Settings

variable (convert ds)

theorem some_freeVariables :
    some (ofDeclarations convert ds).freeVariables =
      (ds.reverse.findSome? Declaration.freeVariables?).or (some false) :=
  some_ofDeclarations (·.freeVariables) _ fun _ _ d => by cases d <;> rfl

theorem some_separator :
    some (ofDeclarations convert ds).separator =
      (ds.reverse.findSome? Declaration.separator?).or (some ',') :=
  some_ofDeclarations (·.separator) _ fun _ _ d => by cases d <;> rfl

theorem some_braces :
    some ((ofDeclarations convert ds).openBrace, (ofDeclarations convert ds).closeBrace) =
      (ds.reverse.findSome? Declaration.braces?).or (some ('(', ')')) :=
  some_ofDeclarations (fun g => (g.openBrace, g.closeBrace)) _ fun _ _ d => by cases d <;> rfl

theorem some_whitespace :
    some (ofDeclarations convert ds).whitespace =
      (ds.reverse.findSome? Declaration.whitespace?).or (some [' ', '\t', '\n']) :=
  some_ofDeclarations (·.whitespace) _ fun _ _ d => by cases d <;> rfl

theorem convert_ofDeclarations : (ofDeclarations convert ds).convert = convert :=
  List.foldlRecOn (motive := fun g : Grammar α => g.convert = convert) ds _ rfl
    fun g hg d _ => by cases d <;> exact hg

end Settings

/-- **A declared grammar holds what stands among its declarations.** -/
theorem upholds_ofDeclarations (convert : String → Except ConversionError α)
    (ds : List (Declaration α)) : (ofDeclarations convert ds).Upholds convert ds where
  prefixOperators c op := by
    rw [prefixOperators_ofDeclarations, (readsTopic_prefixAt? _ c).findSome?_eq_some_iff]
    constructor
    · rintro ⟨d, hd, hop⟩
      obtain ⟨precedence, f, own, rfl, rfl⟩ := exists_of_prefixAt? hop
      exact ⟨precedence, f, own, _, hd, guards_iff.2 rfl, rfl⟩
    · rintro ⟨precedence, f, own, limiter, hd, hlimiter, rfl⟩
      obtain rfl := guards_iff.1 hlimiter
      exact ⟨_, hd, if_pos rfl⟩
  infixOperators c op := by
    rw [infixOperators_ofDeclarations, (readsTopic_infixAt? _ c).findSome?_eq_some_iff]
    constructor
    · rintro ⟨d, hd, hop⟩
      obtain ⟨associativity, precedence, f, own, rfl, rfl⟩ := exists_of_infixAt? hop
      exact ⟨associativity, precedence, f, own, _, hd, guards_iff.2 rfl, rfl⟩
    · rintro ⟨associativity, precedence, f, own, limiter, hd, hlimiter, rfl⟩
      obtain rfl := guards_iff.1 hlimiter
      exact ⟨_, hd, if_pos rfl⟩
  functions name f := by
    rw [functions_ofDeclarations, (readsTopic_functionAt? _ name).findSome?_eq_some_iff]
    constructor
    · rintro ⟨d, hd, hf⟩
      obtain ⟨native, own, rfl, rfl⟩ := exists_of_functionAt? hf
      exact ⟨native, own, _, hd, guards_iff.2 rfl, rfl⟩
    · rintro ⟨native, own, limiter, hd, hlimiter, rfl⟩
      obtain rfl := guards_iff.1 hlimiter
      exact ⟨_, hd, if_pos rfl⟩
  defaults name value := by
    rw [constants_ofDeclarations, (readsTopic_constantAt? name).findSome?_eq_some_iff]
    constructor
    · rintro ⟨d, hd, hvalue⟩
      obtain rfl := eq_of_constantAt? hvalue
      exact hd
    · exact fun hd => ⟨_, hd, if_pos rfl⟩
  freeVariables := by
    refine readsTopic_freeVariables?.stands_or_unsaid _ ?_ (some_freeVariables convert ds)
    rintro (_ | _ | _ | _ | _ | _ | _ | _ | _) b <;> simp [freeVariables?]
  separator := by
    refine readsTopic_separator?.stands_or_unsaid _ ?_ (some_separator convert ds)
    rintro (_ | _ | _ | _ | _ | _ | _ | _ | _) b <;> simp [separator?]
  braces := by
    refine readsTopic_braces?.stands_or_unsaid (fun b => .braces b.1 b.2) ?_
      (some_braces convert ds)
    rintro (_ | _ | _ | _ | _ | _ | _ | _ | _) b <;> simp +contextual [braces?, Prod.ext_iff]
  whitespace := by
    refine readsTopic_whitespace?.stands_or_unsaid _ ?_ (some_whitespace convert ds)
    rintro (_ | _ | _ | _ | _ | _ | _ | _ | _) b <;> simp [whitespace?]
  convert := convert_ofDeclarations convert ds

/-! ## Declarations in another order -/

/-- **The order counts among the declarations of one topic alone.** -/
theorem agreesWith_of_topics
    (h : ∀ t, (ds.filter fun d => d.topic = t) = ds'.filter fun d => d.topic = t) :
    (ofDeclarations convert ds).AgreesWith (ofDeclarations convert ds') := by
  have hfound : ∀ {β : Type} {stated : Declaration α → Option β} {t : Topic},
      ReadsTopic stated t → ds.reverse.findSome? stated = ds'.reverse.findSome? stated := by
    intro β stated t hstated
    rw [← hstated.findSome?_filter, h t, hstated.findSome?_filter]
  have hlimiter : defaultLimiterOf ds = defaultLimiterOf ds' := by
    refine Option.some.inj ?_
    rw [some_defaultLimiterOf, some_defaultLimiterOf, hfound readsTopic_defaultLimiter?]
  have hbraces := some_braces convert ds
  rw [hfound readsTopic_braces?, ← some_braces convert ds', Option.some.injEq,
    Prod.mk.injEq] at hbraces
  exact
    { prefixOperators := fun c => by
        rw [prefixOperators_ofDeclarations, prefixOperators_ofDeclarations, hlimiter,
          hfound (readsTopic_prefixAt? _ c)]
      infixOperators := fun c => by
        rw [infixOperators_ofDeclarations, infixOperators_ofDeclarations, hlimiter,
          hfound (readsTopic_infixAt? _ c)]
      functions := fun name => by
        rw [functions_ofDeclarations, functions_ofDeclarations, hlimiter,
          hfound (readsTopic_functionAt? _ name)]
      freeVariables := Option.some.inj (by
        rw [some_freeVariables, some_freeVariables, hfound readsTopic_freeVariables?])
      defaults := fun name => by
        rw [constants_ofDeclarations, constants_ofDeclarations,
          hfound (readsTopic_constantAt? name)]
      whitespace := Option.some.inj (by
        rw [some_whitespace, some_whitespace, hfound readsTopic_whitespace?])
      separator := Option.some.inj (by
        rw [some_separator, some_separator, hfound readsTopic_separator?])
      openBrace := hbraces.1
      closeBrace := hbraces.2
      convert := by rw [convert_ofDeclarations, convert_ofDeclarations] }

/-- Neighbours of different topics may change places, as far as one topic is concerned. -/
theorem filter_topic_swap (before after : List (Declaration α)) {d e : Declaration α}
    (hne : d.topic ≠ e.topic) (t : Topic) :
    ((before ++ d :: e :: after).filter fun x => x.topic = t) =
      (before ++ e :: d :: after).filter fun x => x.topic = t := by
  simp only [List.filter_append, List.filter_cons]
  by_cases hd : d.topic = t <;> by_cases he : e.topic = t <;> simp [hd, he]
  exact (hne (hd.trans he.symm)).elim

/-- **The last declaration of each thing stands, and the order of different things does not count.**
A declared grammar holds for each glyph and each name the last declaration of it, guarded by its own
limiter, or else by the last one for all operations, wherever that is declared, or else by none; and
each mark as it was declared last.  So where neighbouring declarations that are about different things
change places, every text keeps its value and its error. -/
theorem last_declaration_stands (convert : String → Except ConversionError α) :
    (∀ ds, (ofDeclarations convert ds).Upholds convert ds) ∧
      ∀ before after (d e : Declaration α), d.topic ≠ e.topic → ∀ text bindings,
        (ofDeclarations convert (before ++ d :: e :: after)).parseAndRun text bindings =
          (ofDeclarations convert (before ++ e :: d :: after)).parseAndRun text bindings :=
  ⟨upholds_ofDeclarations convert, fun before after _ _ hne text bindings =>
    (agreesWith_of_topics (filter_topic_swap before after hne)).parseAndRun text bindings⟩

private def readNatural (numeral : String) : Except ConversionError Int :=
  .ok (Nat.ofDigitChars 10 numeral.toList 0)

private def sum : Declaration Int := .infixOp '+' .left 1 (fun a b => .ok (a + b)) none

/-- A limiter that is declared first guards an operation that is declared after it, as one that is
declared after the operation does. -/
theorem last_declaration_stands_limiter :
    sum.topic ≠ (Declaration.defaultLimiter (.bounds none (some 9)) : Declaration Int).topic ∧
      (ofDeclarations readNatural [sum, .defaultLimiter (.bounds none (some 9))]).parseAndRun
          "10+1" ∅ = .error (.calculationLimit (.operandsRefused "+")) ∧
      (ofDeclarations readNatural [.defaultLimiter (.bounds none (some 9)), sum]).parseAndRun
          "10+1" ∅ = .error (.calculationLimit (.operandsRefused "+")) := by
  have htopic : sum.topic ≠
      (Declaration.defaultLimiter (.bounds none (some 9)) : Declaration Int).topic := by
    decide
  have hafter : (ofDeclarations readNatural [sum, .defaultLimiter (.bounds none (some 9))]).parseAndRun
      "10+1" ∅ = .error (.calculationLimit (.operandsRefused "+")) := by
    with_unfolding_all rfl
  exact ⟨htopic, hafter, ((last_declaration_stands readNatural).2 [] [] _ _ htopic "10+1" ∅).symm.trans
    hafter⟩

end Grammar

end Reckon
