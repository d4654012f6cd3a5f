import Mathlib.Data.List.Basic
import Reckon.Proofs.Expression.Scan
import Reckon.Proofs.Token.Longest

/-!
# Proofs/Expression/Located — tokens and faults where they stand in the text

A token is what the grammar makes of **the text from the place on where the token starts**
(`Grammar.Located`), and an error that points at a place speaks of the text from there on
(`Grammar.Reports`).  Reading keeps both, whatever it skips (`Grammar.tokens_concludes`).
-/

namespace Reckon

variable {α : Type}

/-! ## The place of a cursor -/

/-- The cursor stands in the text: what is still to be read is the text from its place on. -/
def Cursor.In (k : Cursor) (text : List Char) : Prop := k.rest = text.drop k.offset

namespace Cursor

variable {k : Cursor} {text : List Char}

theorem in_ofText (text : String) : (ofText text).In text.toList := rfl

theorem In.take (h : k.In text) (n : Nat) : (k.take n).2.In text := by
  have hlength : k.rest.drop (k.rest.take n).length = k.rest.drop n := by
    rw [List.length_take]
    rcases Nat.le_total n k.rest.length with hn | hn
    · rw [Nat.min_eq_left hn]
    · rw [Nat.min_eq_right hn, List.drop_length, List.drop_eq_nil_of_le hn]
  change k.rest.drop n = text.drop (k.offset + (k.rest.take n).length)
  rw [← List.drop_drop, ← show k.rest = text.drop k.offset from h, hlength]

end Cursor

/-! ## What stands at a place -/

/-- The error is of an operation: it has too few operands, or they are refused, or its function has no
value for them. -/
inductive Error.OfOperation : Error → Prop
  | tooFew (name : String) (expected actual : Nat) :
      OfOperation (.invalidArguments name expected actual)
  | refused (name : String) : OfOperation (.calculationLimit (.operandsRefused name))
  | domain (fault : DomainError) : OfOperation (.domain fault)

namespace Grammar

variable (g : Grammar α)

/-- The text that goes on as `cs` goes on with what the token stands for. -/
def Stands (cs : List Char) : Token.Content α → Prop
  | .number value =>
    ∃ numeral, Token.IsLongest Token.IsNumeral numeral cs ∧ g.convert numeral = .ok value
  | .variable name => Token.IsLongest Token.IsName name cs
  | .function f => Token.IsLongest Token.IsName f.name cs ∧ g.functions.get? f.name = some f
  | .operator op => cs.head? = some op.symbol ∧ op ∈ g.operators
  | .openBrace c => cs.head? = some c ∧ c = g.openBrace
  | .closeBrace c => cs.head? = some c ∧ c = g.closeBrace
  | .separator c => cs.head? = some c ∧ c = g.separator

/-- The text has, from the start of the token on, what the token stands for. -/
def Located (text : List Char) (t : Token α) : Prop :=
  g.Stands (text.drop t.span.start) t.content

/-- The fault speaks of the character. -/
def Regards (c : Char) : SyntaxFault → Prop
  | .invalidCharacter d => d = c
  | .missingOpenBraceOrSeparator => c = g.separator
  | .missingOpenBrace => c = g.closeBrace
  | .missingCloseBrace => c = g.openBrace
  | .emptyText | .unexpectedInPostfix _ | .valuesLeftOver | .worded _ => False

/-- The text that goes on as `cs` goes on with what the error speaks of. -/
def Blames (cs : List Char) : Error → Prop
  | .invalidName name _ => Token.IsLongest Token.IsName name cs
  | .conversion lexeme _ _ => Token.IsLongest Token.IsNumeral lexeme cs
  | .invalidSyntax fault _ => ∃ c, cs.head? = some c ∧ g.Regards c fault
  | _ => False

/-- The errors that a text may be answered with: the text has, from the place of the error on, what
the error speaks of, or the error is of none of its places. -/
inductive Reports (text : List Char) : Error → Prop
  | placed {e : Error} {p : Nat} (place : e.position? = some p) (blames : g.Blames (text.drop p) e) :
      Reports text e
  | operation {e : Error} (fault : e.OfOperation) : Reports text e
  | emptyText : Reports text (.invalidSyntax .emptyText none)
  | valuesLeftOver : Reports text (.invalidSyntax .valuesLeftOver none)

variable {g} {expected : Expectation} {offset n : Nat} {c : Char} {cs text : List Char}
  {content : Token.Content α} {e : Error} {k : Cursor}

/-- The wordings of the faults that speak of a character. -/
theorem Regards.message {fault : SyntaxFault} (h : g.Regards c fault) :
    fault.message = s!"Invalid character '{c}'" ∨
      fault.message = "missing argument separator or left brace" ∧ c = g.separator ∨
      fault.message = "missing left brace" ∧ c = g.closeBrace ∨
      fault.message = "missing right brace" ∧ c = g.openBrace := by
  cases fault with
  | invalidCharacter d => exact .inl (by rw [show d = c from h]; rfl)
  | missingOpenBraceOrSeparator => exact .inr (.inl ⟨rfl, h⟩)
  | missingOpenBrace => exact .inr (.inr (.inl ⟨rfl, h⟩))
  | missingCloseBrace => exact .inr (.inr (.inr ⟨rfl, h⟩))
  | emptyText | unexpectedInPostfix _ | valuesLeftOver | worded _ => exact h.elim

/-- An error that has a place speaks of what stands there. -/
theorem Reports.blames (h : g.Reports text e) {p : Nat} (hp : e.position? = some p) :
    g.Blames (text.drop p) e := by
  cases h with
  | placed place blames => exact Option.some.inj (place.symm.trans hp) ▸ blames
  | operation fault => cases fault <;> cases hp
  | emptyText => cases hp
  | valuesLeftOver => cases hp

/-- There is no place behind the end of the text that an error points at. -/
theorem Blames.ne_nil (h : g.Blames cs e) : cs ≠ [] := by
  cases e with
  | invalidName name position =>
    obtain ⟨c, ds, hname, -⟩ := Token.IsLongest.kind h
    exact Token.IsLongest.ne_nil h (by simp [hname])
  | conversion lexeme position cause =>
    obtain ⟨c, ds, hnumeral, -⟩ := Token.IsLongest.kind h
    exact Token.IsLongest.ne_nil h (by simp [hnumeral])
  | invalidSyntax fault position =>
    obtain ⟨c, hc, -⟩ := h
    rintro rfl
    cases hc
  | _ => cases h

/-! ## Reading -/

theorem mem_operators_of_operatorAt? {op : Operator α} (h : g.operatorAt? expected c = some op) :
    op.symbol = c ∧ op ∈ g.operators := by
  cases expected with
  | operand =>
    obtain rfl := Catalogue.key_of_get? h
    exact ⟨rfl, .inl h⟩
  | operator =>
    obtain rfl := Catalogue.key_of_get? h
    exact ⟨rfl, .inr h⟩
  | bareOperand => cases h

theorem contentOfName_concludes {name : String} (hname : Token.IsLongest Token.IsName name cs) :
    Concludes (g.Stands cs) (fun e => e.position? = some offset ∧ g.Blames cs e)
      (g.contentOfName offset name) := by
  rw [contentOfName]
  cases hf : g.functions.get? name with
  | some f =>
    obtain rfl := Catalogue.key_of_get? hf
    exact .ok ⟨hname, hf⟩
  | none =>
    dsimp only
    split
    · exact .ok hname
    · exact .error ⟨rfl, hname⟩

theorem contentOfNumeral_concludes {numeral : String}
    (hnumeral : Token.IsLongest Token.IsNumeral numeral cs) :
    Concludes (g.Stands cs) (fun e => e.position? = some offset ∧ g.Blames cs e)
      (g.contentOfNumeral offset numeral) := by
  rw [contentOfNumeral]
  cases hvalue : g.convert numeral with
  | ok value => exact .ok ⟨numeral, hnumeral, hvalue⟩
  | error cause => exact .error ⟨rfl, hnumeral⟩

theorem contentOfMark_concludes (hc : cs.head? = some c) :
    Concludes (g.Stands cs) (fun e => e.position? = some offset ∧ g.Blames cs e)
      (g.contentOfMark offset c) := by
  rw [contentOfMark]
  split
  · next h => exact .ok ⟨hc, h⟩
  · split
    · next h => exact .ok ⟨hc, h⟩
    · split
      · next h => exact .ok ⟨hc, h⟩
      · exact .error ⟨rfl, c, hc, rfl⟩

/-- **A token is what the text goes on with**, and so is what a fault speaks of. -/
theorem contentAt_concludes (g : Grammar α) (expected : Expectation) (offset : Nat) (c : Char)
    (cs : List Char) :
    Concludes (fun p => g.Stands (c :: cs) p.1)
      (fun e => e.position? = some offset ∧ g.Blames (c :: cs) e)
      (g.contentAt expected offset c cs) := by
  rw [contentAt]
  cases hop : g.operatorAt? expected c with
  | some op =>
    obtain ⟨rfl, hmem⟩ := mem_operators_of_operatorAt? hop
    exact .ok ⟨rfl, hmem⟩
  | none =>
    dsimp only
    split
    · next hc => exact (contentOfName_concludes (Token.isLongest_name hc)).map fun _ h => h
    · split
      · next hc => exact (contentOfNumeral_concludes (Token.isLongest_numeral hc)).map fun _ h => h
      · exact (contentOfMark_concludes rfl).map fun _ h => h

/-- **Reading keeps the tokens where they stand**, and points at what it does not take. -/
theorem tokensFrom_concludes (hk : k.In text) :
    Concludes (fun ts => ∀ t ∈ ts, g.Located text t) (g.Reports text) (g.tokensFrom expected k) := by
  obtain ⟨cs, offset⟩ := k
  generalize hlen : cs.length = len
  induction len using Nat.strongRecOn generalizing expected cs offset with
  | ind len ih =>
    subst hlen
    match cs with
    | [] =>
      rw [tokensFrom]
      exact .ok (by simp)
    | c :: cs =>
      have hrest : c :: cs = text.drop offset := hk
      rw [tokensFrom]
      split
      · exact ih _ (by simp) _ _ (hk.take 1) rfl
      · have hcontent := contentAt_concludes g expected offset c cs
        generalize g.contentAt expected offset c cs = x at hcontent ⊢
        cases hcontent with
        | error h => exact .error (.placed h.1 (hrest ▸ h.2))
        | @ok p h =>
          obtain ⟨content, n⟩ := p
          have hshorter : (cs.drop n).length < (c :: cs).length := by
            simp only [List.length_drop, List.length_cons]
            omega
          refine (ih _ hshorter _ _ (hk.take (n + 1)) rfl).map fun ts hts => ?_
          have hfirst : g.Stands (text.drop offset) content := hrest ▸ h
          simpa using ⟨hfirst, hts⟩

/-- **Every token of a text is located in it, and every fault of reading points into it.** -/
theorem tokens_concludes (g : Grammar α) (text : String) :
    Concludes (fun ts => ∀ t ∈ ts, g.Located text.toList t) (g.Reports text.toList)
      (g.tokens text) := by
  rw [tokens]
  split
  · exact .error .emptyText
  · exact tokensFrom_concludes (Cursor.in_ofText text)

end Grammar

end Reckon
