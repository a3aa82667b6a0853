import ParamCheck.Proofs.Nested.RoundTrip
import ParamCheck.Proofs.Nested.Spelling
import ParamCheck.Proofs.Returns

/-!
# Flattening loses nothing

Flat keys are told apart if the marks leave no doubt where names and indexes end, so that every leaf
of nested data has a flat key of its own (`DelimiterOptions.flatten_lossless`). Options that are
accepted need not have such marks: if the array delimiter begins the hash delimiter, two keys can be
the same although the paths part (`DelimiterOptions.not_lossless`).
-/

namespace ParamCheck

namespace Delimiters.Unmistakable

variable {d : Delimiters} (hd : d.Unmistakable) (hne : ∀ m ∈ d.all, m ≠ [])

include hd hne

/-- Names followed by the rest of a path are told from one another. -/
theorem escapeName_inj {m n : List Char} {p q : Path}
    (h : d.escapeName m ++ p.flatMap d.spellStep = d.escapeName n ++ q.flatMap d.spellStep) :
    m = n ∧ p.flatMap d.spellStep = q.flatMap d.spellStep := by
  have hescape : d.escape ≠ [] := hne _ (by simp [all])
  rw [escapeName, escapeName, if_neg hescape, if_neg hescape] at h
  exact hd.escapeMarks_inj hne (d.atStep_spell p) (d.atStep_spell q) m n h

/-- Paths that part are spelled differently after a name. -/
theorem spellStep_ne {p q : Path} (h : Path.Apart p q) :
    p.flatMap d.spellStep ≠ q.flatMap d.spellStep := by
  induction h with
  | keys hmn p q =>
    intro heq
    rw [List.flatMap_cons, List.flatMap_cons, spellStep, spellStep, List.append_assoc,
      List.append_assoc] at heq
    exact hmn (String.toList_inj.1 (hd.escapeName_inj hne (List.append_cancel_left heq)).1)
  | indexes hij p q =>
    intro heq
    rw [List.flatMap_cons, List.flatMap_cons, spellStep, spellStep, List.append_assoc,
      List.append_assoc] at heq
    exact hij (hd.natDigits_inj (d.atStep_spell p) (d.atStep_spell q)
      (List.append_cancel_left heq)).1
  | under s h ih =>
    intro heq
    rw [List.flatMap_cons, List.flatMap_cons] at heq
    exact ih (List.append_cancel_left heq)

/-- Paths that begin with names and part have different keys. -/
theorem spell_ne {m n : String} {p q : Path} (h : Path.Apart (.key m :: p) (.key n :: q)) :
    d.spell (.key m :: p) ≠ d.spell (.key n :: q) := by
  intro heq
  obtain ⟨hmn, htails⟩ := hd.escapeName_inj hne heq
  cases h with
  | keys hne' => exact hne' (String.toList_inj.1 hmn)
  | under s h => exact hd.spellStep_ne hne h htails

end Delimiters.Unmistakable

namespace DelimiterOptions

/-- Setting an option to a text leaves options that are texts. -/
theorem setOption_texts {hash array escape s : String} {key : Value} {o : DelimiterOptions}
    (h : (ofTexts hash array escape).setOption key (.str s) = .ok o) :
    ∃ hash' array' escape', o = ofTexts hash' array' escape' := by
  unfold setOption at h
  split at h
  · exact ⟨s, array, escape, (Except.ok.inj h).symm⟩
  · exact ⟨s, array, escape, (Except.ok.inj h).symm⟩
  · exact ⟨hash, s, escape, (Except.ok.inj h).symm⟩
  · exact ⟨hash, s, escape, (Except.ok.inj h).symm⟩
  · exact ⟨hash, array, s, (Except.ok.inj h).symm⟩
  · exact ⟨hash, array, s, (Except.ok.inj h).symm⟩
  · cases h

/-- Options that are set to texts and accepted are texts, and the delimiters are not empty. -/
theorem ofEntries_texts {options : Entries Value} {o : DelimiterOptions}
    (htexts : ∀ e ∈ options, ∃ s, e.2 = .str s) (h : ofEntries options = .ok o) :
    ∃ hash array escape, o = ofTexts hash array escape ∧ hash ≠ "" ∧ array ≠ "" := by
  have hfold : ∀ (options : Entries Value), (∀ e ∈ options, ∃ s, e.2 = .str s) →
      ∀ {hash array escape : String} {o : DelimiterOptions},
        options.foldlM (fun o e => o.setOption e.1 e.2) (ofTexts hash array escape) = .ok o →
          ∃ hash' array' escape', o = ofTexts hash' array' escape' := by
    intro options
    induction options with
    | nil => exact fun _ _ _ _ _ h => ⟨_, _, _, (Except.ok.inj h).symm⟩
    | cons e rest ih =>
      intro htexts hash array escape o h
      obtain ⟨k, v⟩ := e
      obtain ⟨⟨s, rfl⟩, hrest⟩ := List.forall_mem_cons.1 htexts
      rw [List.foldlM_cons] at h
      obtain ⟨o', hset, hothers⟩ := bind_eq_ok_iff.1 h
      obtain ⟨_, _, _, rfl⟩ := setOption_texts hset
      exact ih hrest hothers
  unfold ofEntries at h
  obtain ⟨o', hset, hchecks⟩ := bind_eq_ok_iff.1 h
  have hstart : options.foldlM (fun o e => o.setOption e.1 e.2) (ofTexts "." ":" "\\") = .ok o' :=
    hset
  obtain ⟨hash, array, escape, rfl⟩ := hfold options htexts hstart
  refine ⟨hash, array, escape, ?_⟩
  -- Neither of the checks that follow has failed.
  by_cases hempty : (!(Value.str hash).truthy || !(Value.str array).truthy) = true
  · rw [ofTexts, if_pos hempty] at hchecks
    cases hchecks
  · rw [ofTexts, if_neg hempty] at hchecks
    simp [Value.truthy] at hempty
    dsimp only [bind, Except.bind, pure, Except.pure] at hchecks
    split at hchecks
    · cases hchecks
    · exact ⟨(Except.ok.inj hchecks).symm, hempty.1, hempty.2⟩

/-- With options that are texts and are accepted, and with marks that leave no doubt, flattening keeps
every leaf: the flat form holds each of them under a key of its own, and nothing else. -/
theorem flatten_lossless {options : Entries Value} {o : DelimiterOptions} {d : Delimiters}
    (htexts : ∀ e ∈ options, ∃ s, e.2 = .str s) (ho : ofEntries options = .ok o)
    (hescape : o.escape ≠ .str "") (hd : o.delimiters? = some d) (hmarks : d.Unmistakable)
    {entries : Entries Value} (hx : Value.Nested (.dict entries)) :
    ∃ flat, o.flatten (.dict entries) = .ok flat ∧
      flat.length = (Value.leaves.entryLeaves entries).length ∧
      flat = (Value.leaves.entryLeaves entries).map d.flatEntry ∧
      ((Value.leaves.entryLeaves entries).map fun l => d.spell l.1).Nodup := by
  obtain ⟨hash, array, escape, rfl, hhash, harray⟩ := ofEntries_texts htexts ho
  obtain rfl := Option.some.inj hd
  have hne : ∀ m ∈ Delimiters.all ⟨hash.toList, array.toList, escape.toList⟩, m ≠ [] := by
    have hescape' : escape ≠ "" := fun heq => hescape (congrArg Value.str heq)
    simp only [Delimiters.all, List.forall_mem_cons, ne_eq, String.toList_eq_nil_iff]
    exact ⟨hhash, harray, hescape', fun _ h => absurd h List.not_mem_nil⟩
  have hspell : (Value.leaves.entryLeaves entries).Pairwise fun l m =>
      Delimiters.spell ⟨hash.toList, array.toList, escape.toList⟩ l.1 ≠
        Delimiters.spell ⟨hash.toList, array.toList, escape.toList⟩ m.1 :=
    hx.pairwise_entryLeaves
      (R := fun p q => Delimiters.spell ⟨hash.toList, array.toList, escape.toList⟩ p ≠
        Delimiters.spell ⟨hash.toList, array.toList, escape.toList⟩ q)
      fun hapart => hmarks.spell_ne hne hapart
  refine ⟨_, flatten_dict rfl hx.keysWritable, ?_, Delimiters.flatten_of_pairwise hspell,
    List.pairwise_map.2 hspell⟩
  rw [Delimiters.flatten_of_pairwise hspell, List.length_map]

/-- An array delimiter may overlap with itself, since an index follows it. -/
theorem flatten_lossless_colons :
    Delimiters.Unmistakable ⟨".".toList, "::".toList, "\\".toList⟩ ∧
      ∃ flat,
        (ofTexts "." "::" "\\").flatten (.dict [(.str ":", .list [.int 1, .dict []]),
          (.str "", .dict [(.str ":::", .int 2)])]) = .ok flat ∧ flat.length = 3 := by
  have hmarks : Delimiters.Unmistakable ⟨".".toList, "::".toList, "\\".toList⟩ := by
    constructor <;> decide +kernel
  have hlist : Value.Nested (.list [.int 1, .dict []]) :=
    .list (by decide) (by simpa using ⟨.scalar rfl, .dict (by simp) (by decide) (by simp)⟩)
  have hdict : Value.Nested (.dict [(.str ":::", .int 2)]) :=
    .dict (by simp) (by decide) (by simpa using .scalar rfl)
  have hx : Value.Nested (.dict [(.str ":", .list [.int 1, .dict []]),
      (.str "", .dict [(.str ":::", .int 2)])]) :=
    .dict (by simp) (by decide) (by simpa using ⟨hlist, hdict⟩)
  have hoptions : ofEntries [(.str "array_delimiter", .str "::")] = .ok (ofTexts "." "::" "\\") :=
    rfl
  have hescape : (ofTexts "." "::" "\\").escape ≠ .str "" := by simp [ofTexts]
  obtain ⟨flat, hflat, hlength, -⟩ :=
    flatten_lossless (by simp) hoptions hescape rfl hmarks hx
  exact ⟨hmarks, flat, hflat, hlength⟩

/-- Options that are texts and accepted lose no leaf. -/
def Lossless : Prop :=
  ∀ {options : Entries Value} {o : DelimiterOptions}, (∀ e ∈ options, ∃ s, e.2 = .str s) →
    ofEntries options = .ok o → o.escape ≠ .str "" →
      ∀ {entries : Entries Value}, Value.Nested (.dict entries) →
        ∃ flat, o.flatten (.dict entries) = .ok flat ∧
          flat.length = (Value.leaves.entryLeaves entries).length

/-- After an escape sequence, three colons are a literal colon and the hash delimiter, or a literal hash
delimiter and the array delimiter. -/
theorem not_lossless : ¬Lossless := by
  intro h
  have hdict : Value.Nested (.dict [(.str "0", .int 1)]) :=
    .dict (by simp) (by decide) (by simpa using .scalar rfl)
  have hlist : Value.Nested (.list [.int 2]) := .list (by decide) (by simpa using .scalar rfl)
  have hx : Value.Nested (.dict [(.str ":", .dict [(.str "0", .int 1)]),
      (.str "::", .list [.int 2])]) :=
    .dict (by simp) (by decide) (by simpa using ⟨hdict, hlist⟩)
  have hoptions : ofEntries [(.str "hash_delimiter", .str "::"), (.str "array_delimiter", .str ":")] =
      .ok (ofTexts "::" ":" "\\") := rfl
  have hescape : (ofTexts "::" ":" "\\").escape ≠ .str "" := by simp [ofTexts]
  obtain ⟨flat, hflat, hlength⟩ := h (by simp) hoptions hescape hx
  have hone : ((ofTexts "::" ":" "\\").flatten (.dict [(.str ":", .dict [(.str "0", .int 1)]),
      (.str "::", .list [.int 2])])).toOption.map List.length = some 1 := by decide +kernel
  rw [hflat] at hone
  have htwo := hlength.symm.trans (Option.some.inj hone)
  exact absurd htwo (by decide)

end DelimiterOptions

end ParamCheck
