import ParamCheck.Proofs.Nested.FlatKey

/-!
# Keys that cannot be mistaken for one another

What stands after a name in a flat key begins with a delimiter, and inside a name every mark has an
escape sequence before it. Where a name ends can be told as long as none of these tokens can be seen
across the end of what is before it (`Delimiters.Unmistakable`): a name is then as good as read when
a key is compared with another one (`Unmistakable.escapeMarks_inj`), and so is an index
(`Unmistakable.natDigits_inj`). This is enough for paths that part to have different keys
(`Unmistakable.spell_ne`). It is less than keys need in order to be read back: a delimiter may begin
another one, or overlap with itself, if what follows it shows where it stands.
-/

namespace ParamCheck

namespace Delimiters

/-- One of two texts begins the other one. -/
def Meet (s t : List Char) : Prop := s <+: t ∨ t <+: s

instance (s t : List Char) : Decidable (Meet s t) :=
  inferInstanceAs (Decidable (s <+: t ∨ t <+: s))

/-- Two beginnings of a text meet. -/
theorem meet_of_begins {s t text : List Char} (hs : s <+: text) (ht : t <+: text) : Meet s t :=
  List.prefix_or_prefix_of_prefix hs ht

/-- A mark in a flat key, with the text that is bound to follow it. -/
structure Token where
  mark : List Char
  next : List Char
  /-- What the token stands for in a name: nothing if it ends the name. -/
  literal : List Char

/-- A token as it stands in a flat key. -/
def Token.text (t : Token) : List Char := t.mark ++ t.next

/-- What a step after the first begins with: the hash delimiter, or the array delimiter and a
digit. -/
def stepTokens (d : Delimiters) : List Token :=
  ⟨d.hash, [], []⟩ :: "0123456789".toList.map fun c => ⟨d.array, [c], []⟩

/-- What a mark of a name is written as: the escape sequence and the mark. -/
def escapeTokens (d : Delimiters) : List Token := d.all.map fun m => ⟨d.escape, m, m⟩

/-- All tokens of a flat key. -/
def tokens (d : Delimiters) : List Token := d.stepTokens ++ d.escapeTokens

/-- No mark begins in a text that is followed by another one. -/
def Plain (d : Delimiters) (text literal : List Char) : Prop :=
  ∀ n < text.length, ∀ m ∈ d.all, ¬m <+: text.drop n ++ literal

instance (d : Delimiters) (text literal : List Char) : Decidable (d.Plain text literal) :=
  inferInstanceAs (Decidable (∀ n < text.length, ∀ m ∈ d.all, ¬m <+: text.drop n ++ literal))

/-- Marks that leave no doubt where names and indexes end. -/
structure Unmistakable (d : Delimiters) : Prop where
  /-- The beginning of a step is told from an escaped mark. -/
  kinds : ∀ s ∈ d.stepTokens, ∀ e ∈ d.escapeTokens, ¬Meet s.text e.text
  /-- After a plain beginning of a mark no token begins where the mark goes on. -/
  ends : ∀ t ∈ d.tokens, ∀ n < t.mark.length, 0 < n → ∀ u ∈ d.tokens,
    d.Plain (t.mark.take n) u.literal → ¬Meet (t.mark.drop n ++ t.next) u.text
  /-- The same for a mark that begins with a delimiter, where it goes on after that. -/
  longer : ∀ s ∈ [d.hash, d.array], ∀ m ∈ d.all, s <+: m → ∀ n < (m.drop s.length).length,
    ∀ u ∈ d.tokens, d.Plain ((m.drop s.length).take n) u.literal →
      ¬Meet ((m.drop s.length).drop n) u.text
  /-- No delimiter could be an index. -/
  not_digits : ∀ s ∈ [d.hash, d.array], s.all Text.isAsciiDigit = false
  /-- After digits that begin a delimiter no step begins where the delimiter goes on. -/
  indexes : ∀ t ∈ d.stepTokens, ∀ n < t.mark.length, 0 < n →
    (t.mark.take n).all Text.isAsciiDigit = true → ∀ u ∈ d.stepTokens,
      ¬Meet (t.mark.drop n ++ t.next) u.text

/-- A text before which a name or an index ends: it is empty or begins with a step. -/
def AtStep (d : Delimiters) (tail : List Char) : Prop :=
  tail = [] ∨ ∃ t ∈ d.stepTokens, t.text <+: tail

/-- A step begins with a token that ends a name. -/
theorem literal_of_mem_stepTokens {d : Delimiters} {t : Token} (h : t ∈ d.stepTokens) :
    t.literal = [] := by
  rcases List.mem_cons.1 h with rfl | h
  · rfl
  · obtain ⟨c, -, rfl⟩ := List.mem_map.1 h
    rfl

/-- The mark at the beginning of a step is a delimiter. -/
theorem mark_of_mem_stepTokens {d : Delimiters} {t : Token} (h : t ∈ d.stepTokens) :
    t.mark ∈ [d.hash, d.array] := by
  rcases List.mem_cons.1 h with rfl | h
  · exact List.mem_cons_self
  · obtain ⟨c, -, rfl⟩ := List.mem_map.1 h
    exact List.mem_cons_of_mem _ List.mem_cons_self

/-- Every token begins with a mark. -/
theorem mark_of_mem_tokens {d : Delimiters} {t : Token} (h : t ∈ d.tokens) : t.mark ∈ d.all := by
  rcases List.mem_append.1 h with h | h
  · have hmark := mark_of_mem_stepTokens h
    simp only [List.mem_cons, List.not_mem_nil, or_false] at hmark
    simp only [all, List.mem_cons, List.not_mem_nil, or_false]
    tauto
  · obtain ⟨m, -, rfl⟩ := List.mem_map.1 h
    simp [all]

/-- The digits of ASCII are those of the tokens. -/
theorem mem_digits {c : Char} (h : Text.isAsciiDigit c = true) : c ∈ "0123456789".toList := by
  obtain ⟨h0, h9⟩ := Number.toNat_of_isAsciiDigit h
  have hdigits : ∀ n < 0x3A, 0x30 ≤ n → Char.ofNat n ∈ "0123456789".toList := by decide
  rw [← Char.ofNat_toNat c]
  exact hdigits _ h9 h0

/-- The rest of a path stands where a name ends. -/
theorem atStep_spell (d : Delimiters) (path : Path) : d.AtStep (path.flatMap d.spellStep) := by
  cases path with
  | nil => exact .inl rfl
  | cons s path =>
    right
    rw [List.flatMap_cons]
    cases s with
    | key name =>
      refine ⟨_, List.mem_cons_self, ?_⟩
      rw [spellStep, List.append_assoc, Token.text, List.append_nil]
      exact List.prefix_append _ _
    | index n =>
      obtain ⟨c, cs, hcs⟩ := List.exists_cons_of_ne_nil (Nat.toDigits_ne_nil (b := 10) (n := n))
      have hc : c ∈ Number.natDigits n := by
        rw [Number.natDigits, hcs]
        exact List.mem_cons_self
      have hmem := mem_digits (Number.isAsciiDigit_of_mem_natDigits hc)
      refine ⟨_, List.mem_cons_of_mem _ (List.mem_map_of_mem hmem), ?_⟩
      refine ⟨cs ++ path.flatMap d.spellStep, ?_⟩
      rw [spellStep, Number.natDigits, hcs, Token.text]
      simp

/-- The escape sequence is found before any other mark, and a longer delimiter before a shorter one
that begins it. -/
theorem longest_of_first? {d : Delimiters} {cs m rest : List Char}
    (h : first? d.marks cs = some (m, rest)) {n : List Char} (hn : n ∈ d.all) (hne : n ≠ [])
    (hbegins : n <+: cs) : m = d.escape ∨ n ≠ d.escape ∧ n.length ≤ m.length := by
  have hstrip : ∀ {k : List Char}, k ≠ [] → k <+: cs → strip? k cs ≠ none := by
    rintro k hk ⟨rest', rfl⟩ hnone
    rw [strip?_eq_some_iff.2 ⟨hk, rfl⟩] at hnone
    cases hnone
  rw [marks, first?] at h
  split at h
  · cases h
    exact .inl rfl
  · next hescape =>
    -- The escape sequence does not begin the text, and so a delimiter does.
    have hother : n ≠ d.escape := by
      rintro rfl
      exact hstrip hne hbegins hescape
    refine .inr ⟨hother, ?_⟩
    have hpair : n ∈ d.pair := (List.mem_cons.1 (mem_marks.2 hn)).resolve_left hother
    have hlength : ∀ {k l : List Char}, k.length ≤ l.length → (n = l ∨ n = k) →
        first? [l, k] cs = some (m, rest) → n.length ≤ m.length := by
      intro k l hkl hnlk hfirst
      rw [first?] at hfirst
      split at hfirst
      · cases hfirst
        rcases hnlk with rfl | rfl
        · exact Nat.le_refl _
        · exact hkl
      · next hl =>
        rcases hnlk with rfl | rfl
        · exact absurd hl (hstrip hne hbegins)
        · have hk := List.mem_singleton.1 (eq_append_of_first? hfirst).1
          exact Nat.le_of_eq (congrArg List.length hk.symm)
    unfold pair at h hpair
    split at h
    · next heq =>
      rw [if_pos heq] at hpair
      have hm := List.mem_singleton.1 (eq_append_of_first? h).1
      exact Nat.le_of_eq (congrArg List.length ((List.mem_singleton.1 hpair).trans hm.symm))
    · next heq =>
      rw [if_neg heq] at hpair
      split at h
      · next hlt =>
        rw [if_pos hlt] at hpair
        exact hlength (Nat.le_of_lt hlt) (by simpa using hpair) h
      · next hge =>
        rw [if_neg hge] at hpair
        exact hlength (Nat.le_of_not_lt hge) (by simpa using hpair) h

namespace Unmistakable

variable {d : Delimiters} (hd : d.Unmistakable) (hne : ∀ m ∈ d.all, m ≠ [])

include hne

/-- No delimiter is empty if no mark is. -/
theorem nil_not_mem_pair : [] ∉ d.pair := fun h => hne _ (mem_all_of_mem_pair h) rfl

/-- No mark begins in a part of a name that begins with a plain character and goes on plainly. -/
theorem plain_cons {c : Char} {cs text literal : List Char}
    (hfirst : first? d.marks (c :: cs) = none) (hbegins : text ++ literal <+: cs)
    (hplain : d.Plain text literal) : d.Plain (c :: text) literal := by
  intro k hk m hm hmark
  cases k with
  | zero =>
    refine first?_eq_none_iff.1 hfirst m (mem_marks.2 hm) (hne m hm) ?_
    exact hmark.trans ((List.prefix_cons_inj c).2 hbegins)
  | succ k => exact hplain k (Nat.lt_of_succ_lt_succ hk) m hm hmark

/-- What is read first is the beginning of the name, or a token begins in it. -/
theorem begins_or_token {tail : List Char} (htail : d.AtStep tail) (cs : List Char) :
    ∀ {p rest : List Char}, d.escapeMarks cs ++ tail = p ++ rest →
      (∃ cs', cs = p ++ cs' ∧ d.escapeMarks cs' ++ tail = rest) ∨
        ∃ n < p.length, ∃ u ∈ d.tokens, d.Plain (p.take n) u.literal ∧
          p.take n ++ u.literal <+: cs ∧ u.text <+: p.drop n ++ rest := by
  have hplain : ∀ literal, d.Plain [] literal := fun _ n hn => absurd hn (Nat.not_lt_zero n)
  induction cs using name_induction (d := d) with
  | nil =>
    intro p rest h
    rw [escapeMarks_nil (nil_not_mem_pair hne), List.nil_append] at h
    cases p with
    | nil => exact .inl ⟨[], rfl, by rwa [escapeMarks_nil (nil_not_mem_pair hne)]⟩
    | cons c p =>
      rcases htail with rfl | ⟨t, ht, htext⟩
      · cases h
      · right
        refine ⟨0, Nat.zero_lt_succ _, t, List.mem_append_left _ ht, hplain _, ?_, ?_⟩
        · rw [literal_of_mem_stepTokens ht]
          exact List.prefix_rfl
        · rw [List.drop_zero, ← h]
          exact htext
  | mark m cs hfirst ih =>
    intro p rest h
    cases p with
    | nil => exact .inl ⟨_, rfl, h⟩
    | cons c p =>
      right
      have hm := mem_marks.1 (eq_append_of_first? hfirst).1
      refine ⟨0, Nat.zero_lt_succ _, ⟨d.escape, m, m⟩,
        List.mem_append_right _ (List.mem_map_of_mem hm), hplain _, List.prefix_append _ _, ?_⟩
      rw [List.drop_zero, ← h, escapeMarks_of_first? hfirst, Token.text, ← List.append_assoc,
        List.append_assoc]
      exact List.prefix_append _ _
  | char c cs hfirst ih =>
    intro p rest h
    cases p with
    | nil => exact .inl ⟨_, rfl, h⟩
    | cons c' p =>
      rw [escapeMarks_cons (nil_not_mem_pair hne) hfirst, List.cons_append, List.cons_append] at h
      obtain ⟨rfl, hcs⟩ := List.cons.inj h
      rcases ih hcs with ⟨cs', rfl, hrest⟩ | ⟨n, hn, u, hu, hplain, hbegins, htext⟩
      · exact .inl ⟨cs', rfl, hrest⟩
      · exact .inr ⟨n + 1, Nat.succ_lt_succ hn, u, hu, plain_cons hne hfirst hbegins hplain,
          (List.prefix_cons_inj c).2 hbegins, htext⟩

include hd

/-- No token begins at a character of a name at which no mark begins. -/
theorem not_token_of_char {c : Char} {cs tail : List Char}
    (hfirst : first? d.marks (c :: cs) = none) (htail : d.AtStep tail) {t : Token}
    (ht : t ∈ d.tokens) : ¬t.text <+: c :: (d.escapeMarks cs ++ tail) := by
  rintro ⟨rest, hrest⟩
  have hmark := mark_of_mem_tokens ht
  obtain ⟨c', p, hp⟩ := List.exists_cons_of_ne_nil (hne _ hmark)
  have hsplit : c' :: (p ++ (t.next ++ rest)) = c :: (d.escapeMarks cs ++ tail) := by
    rw [← hrest, Token.text, hp]
    simp
  obtain ⟨rfl, h⟩ := List.cons.inj hsplit
  rcases begins_or_token hne htail cs h.symm with
    ⟨cs', rfl, -⟩ | ⟨n, hn, u, hu, hplain, hbegins, htext⟩
  · -- The mark of the token would begin the name.
    refine first?_eq_none_iff.1 hfirst t.mark (mem_marks.2 hmark) (hne _ hmark) ?_
    rw [hp]
    exact List.prefix_append _ _
  · have hlength : n + 1 < t.mark.length := by
      rw [hp]
      exact Nat.succ_lt_succ hn
    refine hd.ends t ht (n + 1) hlength (Nat.succ_pos n) u hu ?_ ?_
    · rw [hp]
      exact plain_cons hne hfirst hbegins hplain
    · rw [hp]
      refine meet_of_begins ?_ htext
      rw [List.drop_succ_cons, ← List.append_assoc]
      exact List.prefix_append _ _

/-- Two names that are followed by steps and begin with marks begin with the same one. -/
theorem mark_eq_of_length_le {m n cs cs' tail tail' : List Char}
    (hm : first? d.marks (m ++ cs) = some (m, cs)) (hn : first? d.marks (n ++ cs') = some (n, cs'))
    (htail : d.AtStep tail) (hlength : m.length ≤ n.length)
    (h : m ++ (d.escapeMarks cs ++ tail) = n ++ (d.escapeMarks cs' ++ tail')) : m = n := by
  have hmall := mem_marks.1 (eq_append_of_first? hm).1
  have hnall := mem_marks.1 (eq_append_of_first? hn).1
  obtain ⟨p, rfl⟩ : m <+: n :=
    List.prefix_of_prefix_length_le (List.prefix_append _ _) ⟨_, h.symm⟩ hlength
  by_contra hmn
  have hp : p ≠ [] := by
    rintro rfl
    exact hmn (List.append_nil m).symm
  -- The shorter mark is not the escape sequence, which would be found first in the other name.
  have hescape : m ≠ d.escape := by
    rintro rfl
    have hbegins : d.escape <+: d.escape ++ p ++ cs' := by
      rw [List.append_assoc]
      exact List.prefix_append _ _
    rcases longest_of_first? hn hmall (hne _ hmall) hbegins with heq | ⟨hother, -⟩
    · exact hmn heq.symm
    · exact hother rfl
  have hdelimiter : m ∈ [d.hash, d.array] := by
    simp only [all, List.mem_cons, List.not_mem_nil, or_false] at hmall ⊢
    tauto
  rw [List.append_assoc] at h
  rcases begins_or_token hne htail cs (List.append_cancel_left h) with
    ⟨r, rfl, -⟩ | ⟨k, hk, u, hu, hplain, -, htext⟩
  · -- The longer mark would be found first in the first name too.
    have hbegins : m ++ p <+: m ++ (p ++ r) := by
      rw [← List.append_assoc]
      exact List.prefix_append _ _
    rcases longest_of_first? hm hnall (hne _ hnall) hbegins with heq | ⟨-, hlong⟩
    · exact hescape heq
    · rw [List.length_append] at hlong
      have hpos := List.length_pos_iff.2 hp
      omega
  · have hlonger := hd.longer m hdelimiter (m ++ p) hnall (List.prefix_append _ _)
    rw [List.drop_left] at hlonger
    exact hlonger k hk u hu hplain (meet_of_begins (List.prefix_append _ _) htext)

/-- A name that begins with a mark does not look like a step. -/
theorem escape_not_step {m text tail : List Char} (hm : m ∈ d.all) (htail : d.AtStep tail) :
    d.escape ++ (m ++ text) ≠ tail := by
  rintro rfl
  have hescape : (⟨d.escape, m, m⟩ : Token) ∈ d.escapeTokens := List.mem_map_of_mem hm
  rcases htail with hnil | ⟨t, ht, htext⟩
  · exact hne d.escape (by simp [all]) (List.append_eq_nil_iff.1 hnil).1
  · refine hd.kinds t ht _ hescape (meet_of_begins htext ?_)
    rw [Token.text, ← List.append_assoc]
    exact List.prefix_append _ _

/-- A name that begins with a plain character does not look like a step. -/
theorem char_not_step {c : Char} {cs tail tail' : List Char}
    (hfirst : first? d.marks (c :: cs) = none) (htail : d.AtStep tail) (htail' : d.AtStep tail') :
    c :: (d.escapeMarks cs ++ tail) ≠ tail' := by
  rintro rfl
  rcases htail' with hnil | ⟨t, ht, htext⟩
  · cases hnil
  · exact hd.not_token_of_char hne hfirst htail (List.mem_append_left _ ht) htext

/-- A name that begins with a plain character does not look like one that begins with a mark. -/
theorem char_not_escape {c : Char} {cs tail m text : List Char}
    (hfirst : first? d.marks (c :: cs) = none) (htail : d.AtStep tail) (hm : m ∈ d.all) :
    c :: (d.escapeMarks cs ++ tail) ≠ d.escape ++ (m ++ text) := by
  intro h
  have hescape : (⟨d.escape, m, m⟩ : Token) ∈ d.tokens :=
    List.mem_append_right _ (List.mem_map_of_mem hm)
  refine hd.not_token_of_char hne hfirst htail hescape ?_
  rw [h, Token.text, ← List.append_assoc]
  exact List.prefix_append _ _

/-- Names that have been escaped and are followed by steps are told from one another. -/
theorem escapeMarks_inj {tail tail' : List Char} (htail : d.AtStep tail) (htail' : d.AtStep tail')
    (cs : List Char) : ∀ cs', d.escapeMarks cs ++ tail = d.escapeMarks cs' ++ tail' →
      cs = cs' ∧ tail = tail' := by
  have hnil := escapeMarks_nil (nil_not_mem_pair hne)
  have hcons : ∀ {c cs}, first? d.marks (c :: cs) = none →
      d.escapeMarks (c :: cs) = c :: d.escapeMarks cs :=
    fun hfirst => escapeMarks_cons (nil_not_mem_pair hne) hfirst
  have hmem : ∀ {m rest}, first? d.marks (m ++ rest) = some (m, rest) → m ∈ d.all :=
    fun hfirst => mem_marks.1 (eq_append_of_first? hfirst).1
  -- The two names have to begin in the same way.
  induction cs using name_induction (d := d) with
  | nil =>
    intro cs' h
    rw [hnil, List.nil_append] at h
    induction cs' using name_induction (d := d) with
    | nil => exact ⟨rfl, by rw [h, hnil, List.nil_append]⟩
    | mark m' rest' hfirst' _ =>
      rw [escapeMarks_of_first? hfirst', List.append_assoc, List.append_assoc] at h
      exact absurd h.symm (hd.escape_not_step hne (hmem hfirst') htail)
    | char c' rest' hfirst' _ =>
      rw [hcons hfirst', List.cons_append] at h
      exact absurd h.symm (hd.char_not_step hne hfirst' htail' htail)
  | mark m rest hfirst ih =>
    intro cs' h
    rw [escapeMarks_of_first? hfirst, List.append_assoc, List.append_assoc] at h
    induction cs' using name_induction (d := d) with
    | nil =>
      rw [hnil, List.nil_append] at h
      exact absurd h (hd.escape_not_step hne (hmem hfirst) htail')
    | mark m' rest' hfirst' _ =>
      rw [escapeMarks_of_first? hfirst', List.append_assoc, List.append_assoc] at h
      have hmarks := List.append_cancel_left h
      obtain rfl : m = m' := by
        rcases Nat.le_total m.length m'.length with hle | hle
        · exact hd.mark_eq_of_length_le hne hfirst hfirst' htail hle hmarks
        · exact (hd.mark_eq_of_length_le hne hfirst' hfirst htail' hle hmarks.symm).symm
      obtain ⟨rfl, htails⟩ := ih rest' (List.append_cancel_left hmarks)
      exact ⟨rfl, htails⟩
    | char c' rest' hfirst' _ =>
      rw [hcons hfirst', List.cons_append] at h
      exact absurd h.symm (hd.char_not_escape hne hfirst' htail' (hmem hfirst))
  | char c rest hfirst ih =>
    intro cs' h
    rw [hcons hfirst, List.cons_append] at h
    induction cs' using name_induction (d := d) with
    | nil =>
      rw [hnil, List.nil_append] at h
      exact absurd h (hd.char_not_step hne hfirst htail htail')
    | mark m' rest' hfirst' _ =>
      rw [escapeMarks_of_first? hfirst', List.append_assoc, List.append_assoc] at h
      exact absurd h (hd.char_not_escape hne hfirst htail (hmem hfirst'))
    | char c' rest' hfirst' _ =>
      rw [hcons hfirst', List.cons_append] at h
      obtain ⟨rfl, hrest⟩ := List.cons.inj h
      obtain ⟨rfl, htails⟩ := ih rest' hrest
      exact ⟨rfl, htails⟩

omit hne in
/-- An index that is followed by a step is not the beginning of a longer one. -/
theorem natDigits_eq_of_prefix {i j : Nat} {tail tail' : List Char} (htail : d.AtStep tail)
    (htail' : d.AtStep tail') (hbegins : Number.natDigits i <+: Number.natDigits j)
    (h : Number.natDigits i ++ tail = Number.natDigits j ++ tail') :
    Number.natDigits i = Number.natDigits j := by
  obtain ⟨w, hw⟩ := hbegins
  rw [← hw, List.append_assoc] at h
  have htails := List.append_cancel_left h
  have hdigits : ∀ c ∈ w, Text.isAsciiDigit c = true := by
    intro c hc
    refine Number.isAsciiDigit_of_mem_natDigits (n := j) ?_
    rw [← hw]
    exact List.mem_append_right _ hc
  by_cases hne : w = []
  · rw [← hw, hne, List.append_nil]
  · exfalso
    -- The digits that the longer index has more would begin a delimiter.
    rcases htail with rfl | ⟨t, ht, htext⟩
    · exact hne (List.append_eq_nil_iff.1 htails.symm).1
    · have hnot : ¬∀ c ∈ t.mark, Text.isAsciiDigit c = true := by
        rw [← List.all_eq_true, hd.not_digits _ (mark_of_mem_stepTokens ht)]
        exact Bool.false_ne_true
      rw [htails, Token.text] at htext
      have hmark : t.mark <+: w ++ tail' := (List.prefix_append _ _).trans htext
      rcases List.prefix_or_prefix_of_prefix hmark (List.prefix_append w tail') with hle | ⟨v, hv⟩
      · exact hnot fun c hc => hdigits c (hle.subset hc)
      · have hv' : v ≠ [] := by
          rintro rfl
          rw [List.append_nil] at hv
          exact hnot fun c hc => hdigits c (hv ▸ hc)
        -- Where the delimiter goes on the other step begins.
        rw [← hv, List.append_assoc] at htext
        have hnext := (List.prefix_append_right_inj w).1 htext
        rcases htail' with rfl | ⟨u, hu, hutext⟩
        · exact hv' (List.append_eq_nil_iff.1 (List.prefix_nil.1 hnext)).1
        · have hlength : w.length < t.mark.length := by
            have hpos := List.length_pos_iff.2 hv'
            rw [← hv, List.length_append]
            omega
          have hindexes := hd.indexes t ht w.length hlength (List.length_pos_iff.2 hne)
          rw [← hv, List.take_left, List.drop_left] at hindexes
          exact hindexes (List.all_eq_true.2 hdigits) u hu (meet_of_begins hnext hutext)

omit hne in
/-- Indexes that are followed by steps are told from one another. -/
theorem natDigits_inj {i j : Nat} {tail tail' : List Char} (htail : d.AtStep tail)
    (htail' : d.AtStep tail') (h : Number.natDigits i ++ tail = Number.natDigits j ++ tail') :
    i = j ∧ tail = tail' := by
  have hdigits : Number.natDigits i = Number.natDigits j := by
    rcases List.prefix_or_prefix_of_prefix (List.prefix_append _ tail) ⟨tail', h.symm⟩ with hle | hle
    · exact hd.natDigits_eq_of_prefix htail htail' hle h
    · exact (hd.natDigits_eq_of_prefix htail' htail hle h.symm).symm
  have hsegment : (Step.index i).segment = (Step.index j).segment :=
    congrArg Segment.position hdigits
  rw [hdigits] at h
  exact ⟨Step.index.inj (Step.segment_injective hsegment), List.append_cancel_left h⟩

end Unmistakable

end Delimiters

end ParamCheck
