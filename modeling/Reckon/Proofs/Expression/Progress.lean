import Mathlib.Data.List.Basic
import Reckon.Proofs.Expression.Scan

/-!
# Proofs/Expression/Progress — a text read part by part

A part of a text is read before what follows it (`Grammar.ScansBefore`): white space and tokens at
their places.  **The whole text is then read as the rest is, from there on**
(`ScansBefore.tokensFrom_append`), and every text can be read so up to its end or up to a lexeme that
stands for nothing (`Grammar.exists_scansBefore`).  What has been read stays as it is before another
text that begins alike (`ScansBefore.before`), and it may be divided wherever no token is cut
(`ScansBefore.divide`).
-/

namespace Reckon

variable {α : Type}

/-! ## The first lexeme -/

/-- The text `rest'` begins as `rest` does, or carries on neither a name nor a numeral. -/
def BeginsLike (rest rest' : List Char) : Prop :=
  ∀ d ∈ rest'.head?,
    d ∈ rest.head? ∨ (Token.isNamePart d = false ∧ Token.isNumeralPart d = false)

theorem beginsLike_nil {rest : List Char} : BeginsLike rest [] := nofun

theorem BeginsLike.append {rest rest' : List Char} (h : BeginsLike rest rest') (cs : List Char) :
    BeginsLike (cs ++ rest) (cs ++ rest') := by
  cases cs with
  | nil => exact h
  | cons c cs => exact fun d hd => .inl hd

/-- A lexeme that ends where `more` ends is all of `more` and stops at what follows. -/
theorem stops_of_length_takeWhile {part : Char → Bool} {more rest : List Char}
    (h : ((more ++ rest).takeWhile part).length = more.length) :
    (∀ d ∈ more, part d = true) ∧ ∀ d ∈ rest.head?, part d = false := by
  induction more with
  | nil =>
    refine ⟨by simp, fun d hd => ?_⟩
    obtain ⟨rest, rfl⟩ := List.head?_eq_some_iff.1 hd
    by_contra hpart
    rw [List.nil_append, List.takeWhile_cons_of_pos (by simpa using hpart)] at h
    simp at h
  | cons c more ih =>
    rw [List.cons_append, List.takeWhile_cons] at h
    split at h
    · next hc =>
      obtain ⟨hmore, hrest⟩ := ih (by simpa using h)
      exact ⟨by simpa using ⟨hc, hmore⟩, hrest⟩
    · simp at h

/-- What a lexeme is read as that ends where `more` ends. -/
theorem exact_of_map_takeWhile {β : Type} {part : Char → Bool} {c : Char} {more rest : List Char}
    {read : String → Except Error β} {content : β}
    (h : (read (String.ofList (c :: (more ++ rest).takeWhile part))).map
      (·, ((more ++ rest).takeWhile part).length) = .ok (content, more.length)) :
    read (String.ofList (c :: more)) = .ok content ∧
      (∀ d ∈ more, part d = true) ∧ ∀ d ∈ rest.head?, part d = false := by
  obtain ⟨_, hcontent, heq⟩ := map_eq_ok_iff.1 h
  obtain ⟨rfl, hlength⟩ := Prod.mk.inj heq
  obtain ⟨hmore, hrest⟩ := stops_of_length_takeWhile hlength
  rw [Grammar.takeWhile_append_of_breaks hmore hrest] at hcontent
  exact ⟨hcontent, hmore, hrest⟩

namespace Grammar

section FirstLexeme

variable {g : Grammar α} {expected : Expectation} {offset : Nat} {c : Char}
  {more rest rest' : List Char} {content : Token.Content α}

/-- **A token stands for the same before every text that begins alike, in every place.** -/
theorem contentAt_before
    (h : g.contentAt expected offset c (more ++ rest) = .ok (content, more.length))
    (hlike : BeginsLike rest rest') (other : Nat) :
    g.contentAt expected other c (more ++ rest') = .ok (content, more.length) := by
  cases g.lexemeAt expected c with
  | operator op _ read =>
    rw [read] at h ⊢
    exact h
  | name _ read =>
    rw [read] at h ⊢
    obtain ⟨hcontent, hmore, hrest⟩ := exact_of_map_takeWhile h
    rw [takeWhile_append_of_breaks hmore fun d hd => (hlike d hd).elim (hrest d) And.left,
      contentOfName_eq_ok hcontent other, map_ok]
  | numeral _ read =>
    rw [read] at h ⊢
    obtain ⟨hcontent, hmore, hrest⟩ := exact_of_map_takeWhile h
    rw [takeWhile_append_of_breaks hmore fun d hd => (hlike d hd).elim (hrest d) And.right,
      contentOfNumeral_eq_ok hcontent other, map_ok]
  | mark read =>
    rw [read] at h ⊢
    obtain ⟨_, hcontent, heq⟩ := map_eq_ok_iff.1 h
    rw [contentOfMark_eq_ok hcontent other, map_ok, heq]

/-- White space is passed over. -/
theorem tokensFrom_space (hc : g.isWhitespace c = true) (expected : Expectation) (cs : List Char)
    (offset : Nat) :
    g.tokensFrom expected ⟨c :: cs, offset⟩ = g.tokensFrom expected ⟨cs, offset + 1⟩ := by
  rw [tokensFrom, if_pos hc]

/-- A token is put before those of the rest. -/
theorem tokensFrom_token (hc : g.isWhitespace c = false)
    (h : g.contentAt expected offset c (more ++ rest) = .ok (content, more.length)) :
    g.tokensFrom expected ⟨c :: (more ++ rest), offset⟩ =
      (g.tokensFrom (.after content) ⟨rest, offset + (more.length + 1)⟩).map
        (⟨content, offset, offset + (more.length + 1)⟩ :: ·) := by
  have hspan : (Cursor.take ⟨c :: (more ++ rest), offset⟩ (more.length + 1)).1.span =
      ⟨offset, offset + (more.length + 1)⟩ := by
    simp [Cursor.take]
  have hnext : (Cursor.take ⟨c :: (more ++ rest), offset⟩ (more.length + 1)).2 =
      ⟨rest, offset + (more.length + 1)⟩ := by
    simp [Cursor.take]
  rw [tokensFrom, if_neg (by simp [hc]), h]
  simp only [hspan, hnext]

end FirstLexeme

/-! ## A part before the rest -/

/-- Before the text `rest` the text `cs`, which starts at the place `offset`, consists of white space
and these tokens, and `expected` may stand at its start. -/
inductive ScansBefore (g : Grammar α) (rest : List Char) :
    Expectation → Nat → List Char → List (Token α) → Prop
  | done (expected : Expectation) (offset : Nat) : ScansBefore g rest expected offset [] []
  | space {expected : Expectation} {offset : Nat} {c : Char} {cs : List Char} {ts : List (Token α)}
      (blank : g.isWhitespace c = true) (others : ScansBefore g rest expected (offset + 1) cs ts) :
      ScansBefore g rest expected offset (c :: cs) ts
  | token {expected : Expectation} {offset : Nat} {c : Char} (more : List Char) {cs : List Char}
      {content : Token.Content α} {ts : List (Token α)} (solid : g.isWhitespace c = false)
      (read : g.contentAt expected offset c (more ++ (cs ++ rest)) = .ok (content, more.length))
      (others : ScansBefore g rest (.after content) (offset + (more.length + 1)) cs ts) :
      ScansBefore g rest expected offset (c :: (more ++ cs))
        (⟨content, offset, offset + (more.length + 1)⟩ :: ts)

/-- At the cursor stands a lexeme that stands for nothing, and `e` is its fault. -/
def Stuck (g : Grammar α) (expected : Expectation) (k : Cursor) (e : Error) : Prop :=
  ∃ c cs, k.rest = c :: cs ∧ g.isWhitespace c = false ∧
    g.contentAt expected k.offset c cs = .error e

variable {g : Grammar α} {expected : Expectation} {offset : Nat} {cs rest rest' : List Char}
  {ts : List (Token α)} {e : Error}

theorem Stuck.tokensFrom {k : Cursor} (h : g.Stuck expected k e) :
    g.tokensFrom expected k = .error e := by
  obtain ⟨all, offset⟩ := k
  obtain ⟨c, cs, rfl, hc, herror⟩ := h
  rw [Grammar.tokensFrom, if_neg (by simp [hc]), herror]

/-- **What has been read stands before what the rest is read as**, tokens or an error. -/
theorem ScansBefore.tokensFrom_append (h : g.ScansBefore rest expected offset cs ts) :
    g.tokensFrom expected ⟨cs ++ rest, offset⟩ =
      (g.tokensFrom (expected.following (ts.map Token.content)) ⟨rest, offset + cs.length⟩).map
        (ts ++ ·) := by
  induction h with
  | done expected offset =>
    cases hrest : g.tokensFrom expected ⟨rest, offset⟩ <;> simp [hrest]
  | @space expected offset c cs ts blank _ ih =>
    rw [List.cons_append, tokensFrom_space blank, ih, List.length_cons, Nat.add_assoc,
      Nat.add_comm 1]
  | @token expected offset c more cs content ts solid read _ ih =>
    have hplace : offset + (more.length + 1) + cs.length = offset + (c :: (more ++ cs)).length := by
      simp only [List.length_cons, List.length_append]
      omega
    rw [List.cons_append, List.append_assoc, tokensFrom_token solid read, ih, map_map, hplace]
    rfl

/-- **A text is read up to its end, or up to a lexeme that stands for nothing.** -/
theorem exists_scansBefore (g : Grammar α) (expected : Expectation) (offset : Nat)
    (cs : List Char) :
    ∃ before rest ts, cs = before ++ rest ∧ g.ScansBefore rest expected offset before ts ∧
      (rest = [] ∨ ∃ e, g.Stuck (expected.following (ts.map Token.content))
        ⟨rest, offset + before.length⟩ e) := by
  generalize hlen : cs.length = len
  induction len using Nat.strongRecOn generalizing expected cs offset with
  | ind len ih =>
    subst hlen
    match cs with
    | [] => exact ⟨[], [], [], rfl, .done expected offset, .inl rfl⟩
    | c :: cs =>
      by_cases hc : g.isWhitespace c = true
      · obtain ⟨before, rest, ts, rfl, hscans, hend⟩ :=
          ih cs.length (by simp) expected (offset + 1) cs rfl
        rw [Nat.add_assoc, Nat.add_comm 1] at hend
        exact ⟨c :: before, rest, ts, rfl, .space hc hscans, hend⟩
      · have hc : g.isWhitespace c = false := by simpa using hc
        cases hread : g.contentAt expected offset c cs with
        | error e =>
          exact ⟨[], c :: cs, [], rfl, .done expected offset, .inr ⟨e, ⟨c, cs, rfl, hc, hread⟩⟩⟩
        | ok p =>
          obtain ⟨content, n⟩ := p
          obtain ⟨hn, -⟩ := contentAt_append hread breaks_nil
          have hshorter : (cs.drop n).length < (c :: cs).length := by
            simp only [List.length_drop, List.length_cons]
            omega
          have hlength : (cs.take n).length = n := by simp [hn]
          obtain ⟨before, rest, ts, hcs, hscans, hend⟩ :=
            ih _ hshorter (.after content) (offset + (n + 1)) (cs.drop n) rfl
          have hsplit : cs = cs.take n ++ (before ++ rest) := by
            rw [← hcs, List.take_append_drop]
          refine ⟨c :: (cs.take n ++ before), rest, ⟨content, offset, offset + (n + 1)⟩ :: ts,
            by rw [List.cons_append, List.append_assoc, ← hsplit], ?_, ?_⟩
          · have hread : g.contentAt expected offset c (cs.take n ++ (before ++ rest)) =
                .ok (content, (cs.take n).length) := by rw [← hsplit, hlength, hread]
            have htoken := ScansBefore.token (cs.take n) hc hread (by rwa [hlength])
            rwa [hlength] at htoken
          · have hplace : offset + (n + 1) + before.length =
                offset + (c :: (cs.take n ++ before)).length := by
              simp only [List.length_cons, List.length_append, hlength]
              omega
            rwa [hplace] at hend

/-- **A text that has been read is read up to its end.** -/
theorem scansBefore_of_tokensFrom (h : g.tokensFrom expected ⟨cs, offset⟩ = .ok ts) :
    g.ScansBefore [] expected offset cs ts := by
  obtain ⟨before, rest, us, rfl, hscans, hend⟩ := g.exists_scansBefore expected offset cs
  rw [hscans.tokensFrom_append] at h
  rcases hend with rfl | ⟨e, hstuck⟩
  · rw [tokensFrom, map_ok, List.append_nil] at h
    rw [List.append_nil]
    exact Except.ok.inj h ▸ hscans
  · rw [hstuck.tokensFrom] at h
    cases h

/-- **A text that cannot be read is read up to a lexeme that stands for nothing.** -/
theorem exists_stuck_of_tokensFrom (h : g.tokensFrom expected ⟨cs, offset⟩ = .error e) :
    ∃ before rest ts, cs = before ++ rest ∧ g.ScansBefore rest expected offset before ts ∧
      g.Stuck (expected.following (ts.map Token.content)) ⟨rest, offset + before.length⟩ e := by
  obtain ⟨before, rest, ts, rfl, hscans, hend⟩ := g.exists_scansBefore expected offset cs
  rw [hscans.tokensFrom_append] at h
  rcases hend with rfl | ⟨e', hstuck⟩
  · rw [tokensFrom] at h
    cases h
  · rw [hstuck.tokensFrom] at h
    obtain rfl : e' = e := Except.error.inj h
    exact ⟨before, rest, ts, rfl, hscans, hstuck⟩

/-- **A text is read as white space and tokens iff it consists of them.** -/
theorem tokensFrom_eq_ok_iff :
    g.tokensFrom expected ⟨cs, offset⟩ = .ok ts ↔ g.ScansBefore [] expected offset cs ts := by
  refine ⟨scansBefore_of_tokensFrom, fun h => ?_⟩
  have happend := h.tokensFrom_append
  rwa [List.append_nil, tokensFrom, map_ok, List.append_nil] at happend

/-- A text that is not empty is read from its first character on. -/
theorem tokenize_eq {text : String} (htext : text ≠ "") :
    g.tokenize text = (g.tokensFrom .operand ⟨text.toList, 0⟩).map .ofTokens := by
  rw [tokenize, tokens, if_neg (by simpa using htext), Cursor.ofText]

/-- **The tokens of a text are those it consists of.** -/
theorem scansBefore_of_tokenize {text : String} {x : Expression g} (h : g.tokenize text = .ok x) :
    text ≠ "" ∧ x = .ofTokens x.tokens ∧ g.ScansBefore [] .operand 0 text.toList x.tokens := by
  by_cases htext : text = ""
  · subst htext
    cases h
  · rw [tokenize_eq htext] at h
    obtain ⟨ts, hts, rfl⟩ := map_eq_ok_iff.1 h
    exact ⟨htext, rfl, scansBefore_of_tokensFrom hts⟩

/-- **A text that consists of tokens is read as them.** -/
theorem ScansBefore.tokenize_eq_ok {text : String}
    (h : g.ScansBefore [] .operand 0 text.toList ts) (htext : text ≠ "") :
    g.tokenize text = .ok (.ofTokens ts) := by
  rw [tokenize_eq htext, tokensFrom_eq_ok_iff.2 h, map_ok]

/-- **A text that goes on with a lexeme that stands for nothing has its fault.** -/
theorem ScansBefore.tokenize_eq_error {text : String} (h : g.ScansBefore rest .operand 0 cs ts)
    (hstuck : g.Stuck (Expectation.operand.following (ts.map Token.content)) ⟨rest, cs.length⟩ e)
    (htext : text.toList = cs ++ rest) : g.tokenize text = .error e := by
  have hne : text ≠ "" := by
    rintro rfl
    obtain ⟨c, more, rfl, -⟩ := hstuck
    simp at htext
  rw [tokenize_eq hne, htext, h.tokensFrom_append, Nat.zero_add, hstuck.tokensFrom, map_error,
    map_error]

/-! ## Its tokens -/

/-- **Each token is found where the text before it has been read.** -/
theorem ScansBefore.exists_of_append {us vs : List (Token α)} {t : Token α}
    (h : g.ScansBefore rest expected offset cs (us ++ t :: vs)) :
    ∃ before c more after, cs = before ++ c :: (more ++ after) ∧ g.isWhitespace c = false ∧
      t.span = ⟨offset + before.length, offset + before.length + (more.length + 1)⟩ ∧
      g.contentAt (expected.following (us.map Token.content)) t.span.start c
        (more ++ (after ++ rest)) = .ok (t.content, more.length) := by
  generalize hall : us ++ t :: vs = ts at h
  induction h generalizing us with
  | done => simp at hall
  | @space expected offset c cs ts blank _ ih =>
    obtain ⟨before, d, more, after, rfl, hsolid, hspan, hread⟩ := ih hall
    rw [Nat.add_assoc, Nat.add_comm 1] at hspan
    exact ⟨c :: before, d, more, after, rfl, hsolid, hspan, hread⟩
  | @token expected offset c more cs content ts solid read _ ih =>
    cases us with
    | nil =>
      obtain ⟨rfl, rfl⟩ := List.cons.inj hall
      exact ⟨[], c, more, cs, rfl, solid, rfl, read⟩
    | cons u us =>
      obtain ⟨rfl, htail⟩ := List.cons.inj hall
      obtain ⟨before, d, more', after, rfl, hsolid, hspan, hread⟩ := ih htail
      have hplace : offset + (more.length + 1) + before.length =
          offset + (c :: (more ++ before)).length := by
        simp only [List.length_cons, List.length_append]
        omega
      rw [hplace] at hspan
      exact ⟨c :: (more ++ before), d, more', after, by simp, hsolid, hspan, hread⟩

/-- A token takes up a character or more, all of them within the part. -/
theorem ScansBefore.bounds (h : g.ScansBefore rest expected offset cs ts) {t : Token α}
    (ht : t ∈ ts) :
    offset ≤ t.span.start ∧ t.span.start < t.span.stop ∧ t.span.stop ≤ offset + cs.length := by
  obtain ⟨us, vs, rfl⟩ := List.append_of_mem ht
  obtain ⟨before, c, more, after, rfl, -, hspan, -⟩ := h.exists_of_append
  simp only [hspan, List.length_append, List.length_cons]
  omega

/-! ## Parts put together and divided -/

/-- **What has been read is read alike before every text that begins alike.** -/
theorem ScansBefore.before (h : g.ScansBefore rest expected offset cs ts)
    (hlike : BeginsLike rest rest') : g.ScansBefore rest' expected offset cs ts := by
  induction h with
  | done expected offset => exact .done expected offset
  | space blank _ ih => exact .space blank ih
  | @token expected offset c more cs content ts solid read _ ih =>
    exact .token more solid (contentAt_before read (hlike.append cs) offset) ih

/-- **Two parts are read one after the other.** -/
theorem ScansBefore.append {cs' : List Char} {ts' : List (Token α)}
    (h : g.ScansBefore (cs' ++ rest) expected offset cs ts)
    (h' : g.ScansBefore rest (expected.following (ts.map Token.content)) (offset + cs.length) cs'
      ts') : g.ScansBefore rest expected offset (cs ++ cs') (ts ++ ts') := by
  induction h with
  | done expected offset => exact h'
  | @space expected offset c cs ts blank _ ih =>
    refine .space blank (ih ?_)
    rwa [Nat.add_assoc, Nat.add_comm 1]
  | @token expected offset c more cs content ts solid read _ ih =>
    have hplace : offset + (c :: (more ++ cs)).length = offset + (more.length + 1) + cs.length := by
      simp only [List.length_cons, List.length_append]
      omega
    rw [hplace] at h'
    rw [List.cons_append, List.append_assoc]
    exact .token more solid (by rwa [List.append_assoc]) (ih h')

/-- **A part is divided wherever no token is cut.** -/
theorem ScansBefore.divide {n : Nat} (h : g.ScansBefore rest expected offset cs ts)
    (hn : n ≤ cs.length)
    (hwhole : ∀ t ∈ ts, ¬ (t.span.start < offset + n ∧ offset + n < t.span.stop)) :
    ∃ us vs, ts = us ++ vs ∧ g.ScansBefore (cs.drop n ++ rest) expected offset (cs.take n) us ∧
      g.ScansBefore rest (expected.following (us.map Token.content)) (offset + n) (cs.drop n) vs := by
  induction h generalizing n with
  | done expected offset =>
    obtain rfl : n = 0 := by simpa using hn
    exact ⟨[], [], rfl, .done expected offset, .done expected offset⟩
  | @space expected offset c cs ts blank others ih =>
    cases n with
    | zero => exact ⟨[], ts, rfl, .done expected offset, .space blank others⟩
    | succ n =>
      have hplace : offset + (n + 1) = offset + 1 + n := by omega
      rw [hplace] at hwhole ⊢
      obtain ⟨us, vs, rfl, hus, hvs⟩ := ih (by simpa using hn) hwhole
      exact ⟨us, vs, rfl, .space blank hus, hvs⟩
  | @token expected offset c more cs content ts solid read others ih =>
    cases n with
    | zero => exact ⟨[], _, rfl, .done expected offset, .token more solid read others⟩
    | succ n =>
      have hfirst := hwhole _ (List.mem_cons_self ..)
      obtain ⟨m, rfl⟩ : ∃ m, n = more.length + m := ⟨n - more.length, by simp at hfirst; omega⟩
      have hplace : offset + (more.length + m + 1) = offset + (more.length + 1) + m := by omega
      rw [hplace] at hwhole ⊢
      obtain ⟨us, vs, rfl, hus, hvs⟩ := ih (by simpa using hn) fun t ht => hwhole t (by simp [ht])
      refine ⟨_ :: us, vs, rfl, ?_, ?_⟩
      · rw [List.take_succ_cons, List.take_length_add_append]
        refine .token more solid ?_ (by simpa using hus)
        simpa [← List.append_assoc, List.take_append_drop] using read
      · simpa using hvs

end Grammar

end Reckon
