import ParamCheck.Command
import ParamCheck.Proofs.Filter
import ParamCheck.Proofs.Number.Digits
import ParamCheck.Proofs.Validator.Selection
import ParamCheck.Proofs.Validator.Stuck

/-!
# Requests about profiles that are valid

A profile is found to be valid if it is resolved without a warning. Parameters are then resolved against it
under every policy, and their validation ends in one of the ways that it is designed for
(`Request.Outcome.Designed`) exactly if the run does not get stuck and its messages can be shown
(`Command.designed_iff`). What reads the files and what can be printed is up to the platform, of which no more is
relied on than `Platform.Dependable` says.
-/

namespace ParamCheck

/-- The keys of a mapping that is read are different. -/
def Reader.KeysApart (read : Reader) : Prop :=
  ∀ {text : String} {entries : Entries Value}, read text = .ok (.dict entries) → entries.Distinct

/-- What is relied on of a platform: its readers set the keys of a mapping one by one, what stands in a document
is data, and the characters of ASCII can be printed. -/
structure Platform.Dependable (platform : Platform) : Prop where
  data : platform.yaml.ReadsData
  yaml : platform.yaml.KeysApart
  json : platform.json.KeysApart
  ascii : ∀ c : Char, c.toNat < 0x80 → platform.prints c = true

/-- The readers of this library are ones that can be relied on. -/
theorem Platform.dependable_plain : Platform.plain.Dependable where
  data := Document.isData_of_readYaml
  yaml := Document.distinct_of_readYaml
  json := Document.distinct_of_readJson
  ascii c hc := by
    have hbelow : ¬0x10F800 ≤ c.toNat := by omega
    show (!decide (0x10F800 ≤ c.toNat)) = true
    rw [decide_eq_false hbelow]
    rfl

/-- A fault of a conversion is not reported. -/
theorem Fault.IsConversion.isReported {e : Fault} (h : e.IsConversion) : e.isReported = false := by
  unfold Fault.isReported
  rcases h with h | h | h <;> rw [h]

/-- What is raised for a fault of a conversion is one. -/
theorem Fault.IsConversion.thrown {e : Fault} (h : e.IsConversion) : e.thrown.IsConversion := by
  unfold Fault.thrown
  split
  · exact h
  · exact .inl rfl

/-! ## Lines -/

/-- Nothing is added where control sequences are left out. -/
theorem Text.mem_of_mem_dropControls {c : Char} : ∀ {skip : Nat} {cs : List Char},
    c ∈ dropControls skip cs → c ∈ cs := by
  intro skip cs
  induction cs generalizing skip with
  | nil => cases skip <;> exact id
  | cons d rest ih =>
    intro h
    cases skip with
    | succ skip => exact List.mem_cons_of_mem d (ih h)
    | zero =>
      rw [dropControls] at h
      split at h
      · exact List.mem_cons_of_mem d (ih h)
      · rcases List.mem_cons.1 h with rfl | h
        · exact List.mem_cons_self
        · exact List.mem_cons_of_mem d (ih h)

namespace Request.Outcome

variable {prints : Char → Bool}

/-- A line can be printed if all its characters can. -/
theorem all_plainLine {line : String} (h : ∀ c ∈ line.toList, prints c = true) :
    (plainLine line).toList.all prints = true := by
  unfold plainLine
  rw [String.toList_ofList, List.all_eq_true]
  exact fun c hc => h c (Text.mem_of_mem_dropControls hc)

/-- A line of ASCII can be printed if all of ASCII can. -/
theorem all_plainLine_of_ascii (hascii : ∀ c : Char, c.toNat < 0x80 → prints c = true) {line : String}
    (h : line.toList.all (fun c => c.toNat < 0x80) = true) : (plainLine line).toList.all prints = true :=
  all_plainLine fun c hc => hascii c (of_decide_eq_true (List.all_eq_true.1 h c hc))

/-- The line about the number of messages is one of ASCII. -/
theorem ascii_count (n : Nat) :
    (toString n ++ " error(s) found").toList.all (fun c => c.toNat < 0x80) = true := by
  have hdigits : (toString n).toList = Number.natDigits n := String.toList_ofList
  rw [String.toList_append, List.all_append, hdigits, Bool.and_eq_true, List.all_eq_true]
  refine ⟨fun c hc => decide_eq_true ?_, by decide⟩
  have hbelow := (Number.toNat_of_isAsciiDigit (Number.isAsciiDigit_of_mem_natDigits hc)).2
  omega

/-- A line that does not begin with a control sequence is printed with its first character. -/
theorem plainLine_ne {line text : String} {c : Char} (hline : line.toList.head? = some c)
    (hc : c ≠ Char.ofNat 27) (htext : text.toList.head? ≠ some c) : plainLine line ≠ text := by
  obtain ⟨rest, hrest⟩ := List.head?_eq_some_iff.1 hline
  have hplain : Text.controlLength? (c :: rest) = none := by
    unfold Text.controlLength?
    split
    · next h =>
      obtain ⟨rfl, -⟩ := List.cons.inj h
      exact absurd rfl hc
    · rfl
  rintro rfl
  refine htext ?_
  unfold plainLine
  rw [hrest, Text.dropControls, hplain, String.toList_ofList]
  rfl

/-- What is printed are lines that are to be. -/
theorem exists_of_mem_printLines {lines : List (Except Fault String)} {l : String}
    (h : l ∈ (printLines prints lines).1) : ∃ line, .ok line ∈ lines ∧ l = plainLine line := by
  induction lines with
  | nil => cases h
  | cons first rest ih =>
    cases first with
    | error e => cases h
    | ok line =>
      rw [printLines] at h
      split at h
      · rcases List.mem_cons.1 h with rfl | h
        · exact ⟨line, List.mem_cons_self, rfl⟩
        · obtain ⟨other, hother, heq⟩ := ih h
          exact ⟨other, List.mem_cons_of_mem _ hother, heq⟩
      · cases h

/-- Lines whose characters can be printed are printed. -/
theorem printLines_of_all {texts : List String} (h : ∀ t ∈ texts, (plainLine t).toList.all prints = true) :
    printLines prints (texts.map .ok) = (texts.map plainLine, none) := by
  induction texts with
  | nil => rfl
  | cons t rest ih =>
    obtain ⟨ht, hrest⟩ := List.forall_mem_cons.1 h
    rw [List.map_cons, printLines, if_pos ht, ih hrest]
    rfl

/-- A line that cannot be made or printed ends the program. -/
theorem exists_of_not_printable {lines : List (Except Fault String)}
    (h : ∃ l ∈ lines, ∀ line, l = .ok line → (plainLine line).toList.all prints = false) :
    ∃ e, (printLines prints lines).2 = some e := by
  induction lines with
  | nil =>
    obtain ⟨l, hl, -⟩ := h
    cases hl
  | cons first rest ih =>
    cases first with
    | error e => exact ⟨e, rfl⟩
    | ok line =>
      rw [printLines]
      split
      · next hline =>
        obtain ⟨l, hl, hbad⟩ := h
        rcases List.mem_cons.1 hl with rfl | hl
        · cases hline.symm.trans (hbad line rfl)
        · exact ih ⟨l, hl, hbad⟩
      · exact ⟨.unencodable, rfl⟩

/-! ## Ways to end -/

/-- The ways in which the validation of parameters is designed to end, given the messages of the validator:
they are valid, or there is a line for each message and one for their number, or the request is refused. -/
inductive Designed (messages : List Value) (o : Request.Outcome) : Prop where
  | valid (hmessages : messages = []) (exit : o.exit = 0) (caught : o.uncaught = none) (out : o.out = ["Valid"])
  | invalid (hmessages : messages ≠ []) (exit : o.exit = 1) (caught : o.uncaught = none)
      (out : o.out = (messages.map (fun m => "  ✗ " ++ m.text) ++
        ["", toString messages.length ++ " error(s) found"]).map plainLine)
  | refused (text : String) (exit : o.exit = 1) (caught : o.uncaught = none) (out : o.out = [])
      (err : o.err.getLast? = some (plainLine ("Error: " ++ text)))

/-- No fault is left over where the validation ends as it is designed to. -/
theorem Designed.not_uncaught {messages : List Value} {o : Request.Outcome} (h : o.Designed messages) :
    ¬∃ e, o.uncaught = some e := by
  rintro ⟨e, he⟩
  cases h with
  | valid _ _ caught => cases caught.symm.trans he
  | invalid _ _ caught => cases caught.symm.trans he
  | refused _ _ caught => cases caught.symm.trans he

/-- An outcome that is designed unless there is trouble, and leaves a fault over if there is, tells by either
which one is the case. -/
theorem designed_iff_and_uncaught_iff {trouble : Prop} {messages : List Value} {o : Request.Outcome}
    (h : (¬trouble ∧ o.Designed messages) ∨ (trouble ∧ ∃ e, o.uncaught = some e)) :
    (o.Designed messages ↔ ¬trouble) ∧ ((∃ e, o.uncaught = some e) ↔ trouble) := by
  rcases h with ⟨hfree, hdesigned⟩ | ⟨htrouble, huncaught⟩
  · exact ⟨iff_of_true hdesigned hfree, iff_of_false hdesigned.not_uncaught hfree⟩
  · exact ⟨iff_of_false (fun hdesigned => hdesigned.not_uncaught huncaught) (not_not_intro htrouble),
      iff_of_true huncaught htrouble⟩

/-- A fault that is reported is a refusal. -/
theorem designed_ofFault {e : Fault} (h : e.thrown.isReported = true) (verbose : Bool) (notes : List Note)
    (messages : List Value) : ((ofFault e).withNotes verbose notes).Designed messages := by
  unfold ofFault
  rw [if_pos h]
  exact .refused e.thrown.message rfl rfl rfl List.getLast?_concat

/-- A fault that is not reported is left over. -/
theorem uncaught_ofFault {e : Fault} (h : e.thrown.isReported = false) (verbose : Bool) (notes : List Note) :
    ((ofFault e).withNotes verbose notes).uncaught = some e.thrown := by
  unfold ofFault
  rw [if_neg (by rw [h]; exact Bool.false_ne_true)]
  rfl

end Request.Outcome

namespace Command

variable {platform : Platform} {files : FileTree} {profile params : String} {policy : Policy} {v : Validator}

/-! ## Profiles that are valid -/

/-- A validator comes from a profile that is loaded. -/
theorem buildValidator_ok {x : Value} (h : (buildValidator platform files profile policy (.ok x)).1 = .ok v) :
    ∃ p j, Returns (Profile.load platform.yaml files profile) {} p j ∧ (p.build { policy } x).1 = .ok v := by
  unfold buildValidator at h
  rcases hload : (Profile.load platform.yaml files profile).run {} with ⟨e | p, j⟩
  · rw [hload] at h
    cases h
  · rw [hload] at h
    exact ⟨p, j, hload, h⟩

/-- A profile that is loaded is resolved with any parameters. -/
theorem buildValidator_of_load {p : Profile} {j : Journal}
    (h : Returns (Profile.load platform.yaml files profile) {} p j) (x : Value) :
    (buildValidator platform files profile policy (.ok x)).1 = (p.build { policy } x).1 := by
  unfold Returns at h
  unfold buildValidator
  rw [h]

/-- A profile is found to be valid. -/
def Accepted (platform : Platform) (files : FileTree) (profile : String) : Prop :=
  ∃ verbose ignoreUnknown,
    (Request.run platform files ⟨verbose, .checkProfile profile ignoreUnknown⟩).out.getLast? =
      some "Profile is valid."

/-- A profile that is resolved is found to be valid only if there is no warning. -/
theorem warnings_eq_nil_of_printed {prints : Char → Bool}
    (h : "Profile is valid." ∈ (Request.Outcome.printLines prints (resolvedLines v)).1) : v.warnings = [] := by
  obtain ⟨line, hline, heq⟩ := Request.Outcome.exists_of_mem_printLines h
  by_contra hwarnings
  have hempty : v.warnings.isEmpty = false := List.isEmpty_eq_false_iff.2 hwarnings
  have hmarked : ∀ {mark text : String} {x : Value}, mark.toList.head? = some ' ' →
      .ok text = markedLine mark x → text.toList.head? = some ' ' := by
    intro mark text x hmark hmade
    obtain ⟨_, -, hcons⟩ := bind_eq_ok_iff.1 hmade.symm
    obtain rfl := Except.ok.inj hcons
    rw [String.toList_append, List.head?_append, hmark]
    rfl
  -- No line that is printed begins as that one does.
  have hfirst : line = "" ∨ ∃ c, line.toList.head? = some c ∧ c ≠ Char.ofNat 27 ∧ c ≠ 'P' := by
    unfold resolvedLines at hline
    dsimp only at hline
    rw [hempty, if_neg Bool.false_ne_true] at hline
    simp only [List.mem_append, List.mem_cons, List.mem_map, List.not_mem_nil, or_false] at hline
    rcases hline with ((hline | ⟨e, -, hline⟩) | ⟨x, -, hline⟩) | hline | hline
    · obtain rfl := Except.ok.inj hline
      exact .inr ⟨'R', by simp [String.toList_append], by decide, by decide⟩
    · obtain ⟨text, hmade, hcons⟩ := bind_eq_ok_iff.1 hline
      obtain rfl := Except.ok.inj hcons
      refine .inr ⟨' ', ?_, by decide, by decide⟩
      simp [String.toList_append, List.head?_append, hmarked rfl hmade.symm]
    · exact .inr ⟨' ', hmarked rfl hline.symm, by decide, by decide⟩
    · exact .inl (Except.ok.inj hline)
    · obtain rfl := Except.ok.inj hline
      have hdigits : Number.natDigits v.warnings.length ≠ [] := Nat.toDigits_ne_nil
      obtain ⟨c, cs, hcons⟩ := List.exists_cons_of_ne_nil hdigits
      have hc : Text.isAsciiDigit c = true :=
        Number.isAsciiDigit_of_mem_natDigits (hcons ▸ List.mem_cons_self)
      refine .inr ⟨c, ?_, ?_, ?_⟩
      · rw [String.toList_append, List.head?_append]
        show ((String.ofList (Number.natDigits v.warnings.length)).toList.head?).or _ = _
        rw [String.toList_ofList, hcons]
        rfl
      · rintro rfl
        exact absurd hc (by decide)
      · rintro rfl
        exact absurd hc (by decide)
  obtain rfl | ⟨c, hhead, hescape, hne⟩ := hfirst
  · exact absurd heq (by decide)
  · refine Request.Outcome.plainLine_ne hhead hescape ?_ heq.symm
    have hstart : "Profile is valid.".toList.head? = some 'P' := by decide
    rw [hstart]
    exact fun hp => hne (Option.some.inj hp).symm

/-- A profile that is found to be valid is resolved without a warning. -/
theorem Accepted.builds (h : Accepted platform files profile) :
    ∃ ignoreUnknown v,
      (buildValidator platform files profile ⟨ignoreUnknown, ignoreUnknown⟩ (.ok .null)).1 = .ok v ∧
        v.warnings = [] := by
  obtain ⟨verbose, ignoreUnknown, hlast⟩ := h
  refine ⟨ignoreUnknown, ?_⟩
  have hprinted := List.mem_of_getLast? hlast
  unfold Request.run runCheck at hprinted
  dsimp only at hprinted
  rcases hbuilt : buildValidator platform files profile ⟨ignoreUnknown, ignoreUnknown⟩ (.ok .null) with
    ⟨e | v, notes⟩
  · -- Nothing is printed about a profile that is not resolved.
    rw [hbuilt] at hprinted
    unfold Request.Outcome.ofFault at hprinted
    dsimp only at hprinted
    split at hprinted <;> cases hprinted
  · rw [hbuilt] at hprinted
    have hlines : "Profile is valid." ∈ (Request.Outcome.printLines platform.prints (resolvedLines v)).1 := by
      unfold Request.Outcome.ofLines at hprinted
      dsimp only at hprinted
      split at hprinted
      · next out hout =>
        rw [hout]
        exact hprinted
      · next out e hout =>
        rw [hout]
        exact hprinted
    exact ⟨v, rfl, warnings_eq_nil_of_printed hlines⟩

/-- A profile that is found to be valid is one that the strict policy accepts. -/
theorem Accepted.strict (h : Accepted platform files profile) :
    ∃ p j report v, Returns (Profile.load platform.yaml files profile) {} p j ∧
      (p.build { policy := .strict report } .null).1 = .ok v := by
  obtain ⟨ignoreUnknown, v, hbuilt, hwarnings⟩ := h.builds
  obtain ⟨p, j, hload, hresolved⟩ := buildValidator_ok hbuilt
  cases ignoreUnknown with
  | false => exact ⟨p, j, false, v, hload, hresolved⟩
  | true =>
    obtain ⟨w, hw⟩ := Validator.create_strict_of_no_warnings hresolved hwarnings false
    exact ⟨p, j, false, w, hload, hw⟩

/-! ## Parameters -/

/-- A mapping that is loaded is empty, or one that a document holds. -/
theorem loadParams_ok {x : Value} (h : loadParams platform files params = .ok x) :
    x = .dict [] ∨ ∃ text entries, x = .dict entries ∧
      (platform.json text = .ok (.dict entries) ∨ platform.yaml text = .ok (.dict entries)) := by
  unfold loadParams at h
  dsimp only at h
  split at h
  · next text _ =>
    obtain ⟨_, htext, h⟩ := bind_eq_ok_iff.1 h
    obtain rfl := Except.ok.inj htext
    split at h
    · obtain ⟨y, hy, h⟩ := bind_eq_ok_iff.1 h
      cases y with
      | null => exact .inl (Except.ok.inj h).symm
      | dict entries => exact .inr ⟨text, entries, (Except.ok.inj h).symm, .inl hy⟩
      | _ => cases h
    · obtain ⟨y, hy, h⟩ := bind_eq_ok_iff.1 h
      cases y with
      | null => exact .inl (Except.ok.inj h).symm
      | dict entries => exact .inr ⟨text, entries, (Except.ok.inj h).symm, .inr hy⟩
      | _ => cases h
  · cases h
  · cases h

/-- Whether texts stand under texts in a mapping. -/
def mapsTexts : Value → Bool
  | .dict entries => entries.all fun e => e.1.isText && e.2.isText
  | _ => false

/-- What is known of a mapping of texts that is loaded. -/
theorem exists_entries_of_loadParams (hplatform : platform.Dependable) {x : Value}
    (h : loadParams platform files params = .ok x) (htexts : mapsTexts x = true) :
    ∃ entries : Entries Value, x = .dict entries ∧ entries.Distinct ∧ Value.AllTexts entries.keys ∧
      ∀ e ∈ entries, ∃ s, e.2 = .str s := by
  obtain ⟨entries, rfl, hdistinct⟩ : ∃ entries : Entries Value, x = .dict entries ∧ entries.Distinct := by
    obtain rfl | ⟨text, entries, rfl, hread | hread⟩ := loadParams_ok h
    · exact ⟨[], rfl, List.Pairwise.nil⟩
    · exact ⟨entries, rfl, hplatform.json hread⟩
    · exact ⟨entries, rfl, hplatform.yaml hread⟩
  have htext : ∀ {v : Value}, v.isText = true → ∃ s, v = .str s := by
    intro v hv
    cases v with
    | str s => exact ⟨s, rfl⟩
    | _ => cases hv
  have hentries : ∀ e ∈ entries, (∃ k, e.1 = .str k) ∧ ∃ s, e.2 = .str s := by
    intro e he
    obtain ⟨hkey, hvalue⟩ := Bool.and_eq_true_iff.1 (List.all_eq_true.1 htexts e he)
    exact ⟨htext hkey, htext hvalue⟩
  refine ⟨entries, rfl, hdistinct, fun k hk => ?_, fun e he => (hentries e he).2⟩
  obtain ⟨e, he, rfl⟩ := List.mem_map.1 hk
  exact (hentries e he).1

/-! ## Runs -/

/-- A message can be shown in a line of the report. -/
def Shown (prints : Char → Bool) (message : Value) : Prop :=
  message.writable = true ∧ (Request.Outcome.plainLine ("  ✗ " ++ message.text)).toList.all prints = true

/-- A run returns and has a message that cannot be shown. -/
def Unshown (prints : Char → Bool) (o : Validator.Outcome) : Prop :=
  (∃ b, o.answer = .ok b) ∧ ∃ m ∈ o.validator.messages, ¬Shown prints m

section

variable {prints : Char → Bool} (hascii : ∀ c : Char, c.toNat < 0x80 → prints c = true)

include hascii

/-- If its messages can be shown, a report is printed as a whole. -/
theorem printLines_reportLines (h : ∀ m ∈ v.messages, Shown prints m) :
    Request.Outcome.printLines prints (reportLines v) =
      ((v.messages.map (fun m => "  ✗ " ++ m.text) ++
        ["", toString v.messages.length ++ " error(s) found"]).map Request.Outcome.plainLine, none) := by
  have hmarked : v.messages.map (markedLine "  ✗ ") =
      (v.messages.map fun m => "  ✗ " ++ m.text).map .ok := by
    rw [List.map_map]
    refine List.map_congr_left fun m hm => ?_
    rw [markedLine, Value.write_of_writable (h m hm).1]
    rfl
  have hlines : reportLines v = (v.messages.map (fun m => "  ✗ " ++ m.text) ++
      ["", toString v.messages.length ++ " error(s) found"]).map .ok := by
    rw [reportLines, hmarked, List.map_append]
    rfl
  rw [hlines]
  refine Request.Outcome.printLines_of_all fun t ht => ?_
  simp only [List.mem_append, List.mem_cons, List.not_mem_nil, or_false, List.mem_map] at ht
  rcases ht with ⟨m, hm, rfl⟩ | rfl | rfl
  · exact (h m hm).2
  · rfl
  · exact Request.Outcome.all_plainLine_of_ascii hascii (Request.Outcome.ascii_count _)

end

/-- A message that cannot be shown ends the program as it is printed. -/
theorem exists_of_not_shown {prints : Char → Bool} (h : ∃ m ∈ v.messages, ¬Shown prints m) :
    ∃ e, (Request.Outcome.printLines prints (reportLines v)).2 = some e := by
  obtain ⟨m, hm, hnot⟩ := h
  refine Request.Outcome.exists_of_not_printable ⟨markedLine "  ✗ " m, ?_, fun line hline => ?_⟩
  · exact List.mem_append_left _ (List.mem_map_of_mem hm)
  · obtain ⟨text, htext, hcons⟩ := bind_eq_ok_iff.1 hline
    obtain ⟨hwritable, rfl⟩ := Value.write_eq_ok_iff.1 htext
    obtain rfl := Except.ok.inj hcons
    by_contra hprinted
    exact hnot ⟨hwritable, by simpa using hprinted⟩

section

variable (verbose : Bool) {targets : List String} {x : Value}

/-- How the validation of parameters ends goes by the answer of the run. -/
theorem exists_outcome (hload : loadParams platform files params = .ok x)
    (hbuilt : (buildValidator platform files profile policy (.ok x)).1 = .ok v) :
    ∃ notes, Request.run platform files ⟨verbose, .validateParams profile params targets policy⟩ =
      Request.Outcome.withNotes (match (v.validate .none (targets.map .str)).answer with
        | .error e => .ofFault e
        | .ok true => .ofLines platform.prints 0 [.ok "Valid"]
        | .ok false => .ofLines platform.prints 1 (reportLines (v.validate .none (targets.map .str)).validator))
        verbose notes := by
  unfold Request.run runValidate
  dsimp only
  rw [hload]
  rcases hpair : buildValidator platform files profile policy (.ok x) with ⟨built, notes⟩
  rw [hpair] at hbuilt
  subst hbuilt
  exact ⟨_, rfl⟩

/-- A run that returns ends as it is designed to if its messages can be shown. -/
theorem designed_of_ok (hplatform : platform.Dependable) (hload : loadParams platform files params = .ok x)
    (hbuilt : (buildValidator platform files profile policy (.ok x)).1 = .ok v) {b : Bool}
    (h : (v.validate .none (targets.map .str)).answer = .ok b)
    (hshown : ∀ m ∈ (v.validate .none (targets.map .str)).validator.messages, Shown platform.prints m) :
    (Request.run platform files ⟨verbose, .validateParams profile params targets policy⟩).Designed
      (v.validate .none (targets.map .str)).validator.messages := by
  obtain ⟨notes, hrun⟩ := exists_outcome verbose hload hbuilt
  have hempty := (Validator.answer_iff h).trans List.length_eq_zero_iff
  rw [hrun, h]
  cases b with
  | true =>
    have hprinted : Request.Outcome.printLines platform.prints (["Valid"].map .ok) =
        (["Valid"].map Request.Outcome.plainLine, none) := by
      refine Request.Outcome.printLines_of_all fun t ht => ?_
      obtain rfl := List.mem_singleton.1 ht
      exact Request.Outcome.all_plainLine_of_ascii hplatform.ascii (by decide)
    have hplain : Request.Outcome.plainLine "Valid" = "Valid" := by decide
    have hvalid : Request.Outcome.printLines platform.prints [.ok "Valid"] = (["Valid"], none) := by
      rw [List.map_singleton, List.map_singleton, hplain] at hprinted
      exact hprinted
    dsimp only
    rw [Request.Outcome.ofLines, hvalid]
    exact .valid (hempty.1 rfl) rfl rfl rfl
  | false =>
    dsimp only
    rw [Request.Outcome.ofLines, printLines_reportLines hplatform.ascii hshown]
    exact .invalid (fun hmessages => Bool.false_ne_true (hempty.2 hmessages)) rfl rfl rfl

/-- A run that returns ends with a fault that is left over if a message of it cannot be shown. -/
theorem uncaught_of_unshown (hload : loadParams platform files params = .ok x)
    (hbuilt : (buildValidator platform files profile policy (.ok x)).1 = .ok v)
    (h : Unshown platform.prints (v.validate .none (targets.map .str))) :
    ∃ e, (Request.run platform files ⟨verbose, .validateParams profile params targets policy⟩).uncaught =
      some e := by
  obtain ⟨notes, hrun⟩ := exists_outcome verbose hload hbuilt
  obtain ⟨⟨b, hb⟩, m, hm, hnot⟩ := h
  have hempty := (Validator.answer_iff hb).trans List.length_eq_zero_iff
  rw [hrun, hb]
  cases b with
  | true =>
    rw [hempty.1 rfl] at hm
    cases hm
  | false =>
    obtain ⟨e, he⟩ := exists_of_not_shown ⟨m, hm, hnot⟩
    refine ⟨e, ?_⟩
    dsimp only
    unfold Request.Outcome.ofLines
    split
    · next hlines =>
      rw [hlines] at he
      cases he
    · next e' hlines =>
      rw [hlines] at he
      exact he

/-- A run that fails for a fault that is reported ends as it is designed to. -/
theorem designed_of_error (hload : loadParams platform files params = .ok x)
    (hbuilt : (buildValidator platform files profile policy (.ok x)).1 = .ok v) {e : Fault}
    (h : (v.validate .none (targets.map .str)).answer = .error e) (he : e.thrown.isReported = true)
    (messages : List Value) :
    (Request.run platform files ⟨verbose, .validateParams profile params targets policy⟩).Designed messages := by
  obtain ⟨notes, hrun⟩ := exists_outcome verbose hload hbuilt
  rw [hrun, h]
  exact Request.Outcome.designed_ofFault he verbose notes messages

/-- A fault that is not reported is left over from the run. -/
theorem uncaught_of_error (hload : loadParams platform files params = .ok x)
    (hbuilt : (buildValidator platform files profile policy (.ok x)).1 = .ok v) {e : Fault}
    (h : (v.validate .none (targets.map .str)).answer = .error e) (he : e.thrown.isReported = false) :
    (Request.run platform files ⟨verbose, .validateParams profile params targets policy⟩).uncaught =
      some e.thrown := by
  obtain ⟨notes, hrun⟩ := exists_outcome verbose hload hbuilt
  rw [hrun, h]
  exact Request.Outcome.uncaught_ofFault he verbose notes

end

/-- Parameters that are texts are resolved against a profile that is found to be valid, to a validator of fields
that a document declares, and a run of it for any targets can be planned. -/
theorem Accepted.exists_plan (h : Accepted platform files profile) (hplatform : platform.Dependable) {x : Value}
    (hload : loadParams platform files params = .ok x) (htexts : mapsTexts x = true) (policy : Policy)
    (targets : List String) :
    ∃ v, (buildValidator platform files profile policy (.ok x)).1 = .ok v ∧ v.Consistent ∧ v.Documented ∧
      (∀ e ∈ v.start.params, e.2.writable = true) ∧
      ∃ plan run₀, Returns (v.resetFields.plan (targets.map .str)) v.start plan run₀ := by
  obtain ⟨entries, rfl, hdistinct, hkeys, hvalues⟩ := exists_entries_of_loadParams hplatform hload htexts
  have hscalars : ∀ e ∈ entries, e.2.isContainer = false := by
    intro e he
    obtain ⟨s, hs⟩ := hvalues e he
    rw [hs]
    rfl
  obtain ⟨p, j, report, u, hp, hstrict⟩ := h.strict
  obtain ⟨v, hbuild, hparams, -, hdocumented, hconsistent⟩ :=
    (Profile.written_of_load hplatform.data hp).build_of_strict hstrict policy hdistinct hscalars
  have hstart : v.start.params = entries := hparams
  have hnames : Value.AllTexts v.resetFields.fields.keys := by
    show Value.AllTexts (v.fields.mapValues Field.reset).keys
    rw [Entries.keys_mapValues]
    exact hdocumented.names
  refine ⟨v, (buildValidator_of_load hp _).trans hbuild, hconsistent, hdocumented, ?_, ?_⟩
  · rw [hstart]
    intro e he
    obtain ⟨s, hs⟩ := hvalues e he
    rw [hs]
    rfl
  · have hqueue : v.resetFields.queue = ([] : List String).map .str := hdocumented.queue
    exact Validator.plan_returns hconsistent.resetFields.fits hnames hqueue (.names targets) (hstart ▸ hkeys)

/-- If a profile is found to be valid, then parameters that are texts are resolved against it, and a run for any
targets can be planned. The run ends as it is designed to unless it gets stuck or has a message that cannot be
shown, and then it ends with a fault that is left over. If every integer that the fields list can be written,
turns are stuck for arguments that cannot be read and for no other reason. -/
theorem designed_iff (hplatform : platform.Dependable) (h : Accepted platform files profile) {x : Value}
    (hload : loadParams platform files params = .ok x) (htexts : mapsTexts x = true) (verbose : Bool)
    (targets : List String) (policy : Policy) :
    ∃ v plan run₀, (buildValidator platform files profile policy (.ok x)).1 = .ok v ∧
      Returns (v.resetFields.plan (targets.map .str)) v.start plan run₀ ∧
      ((Request.run platform files ⟨verbose, .validateParams profile params targets policy⟩).Designed
          (v.validate .none (targets.map .str)).validator.messages ↔
        ¬(v.GetsStuck .none plan run₀.params ∨
          Unshown platform.prints (v.validate .none (targets.map .str)))) ∧
      ((∃ e, (Request.run platform files
          ⟨verbose, .validateParams profile params targets policy⟩).uncaught = some e) ↔
        v.GetsStuck .none plan run₀.params ∨
          Unshown platform.prints (v.validate .none (targets.map .str))) ∧
      (v.Writable → ∀ before name after, plan.selected = before ++ name :: after →
        (v.Stuck .none plan run₀.params before name ↔ v.Unreadable .none plan run₀.params name)) := by
  obtain ⟨v, hbuilt, hconsistent, hdocumented, hwritable, plan, run₀, hplan⟩ :=
    h.exists_plan hplatform hload htexts policy targets
  obtain ⟨plan', run₀', hready, -⟩ := Validator.exists_ready hconsistent hdocumented.directives
    hdocumented.validation .none (Validator.selected?_eq hplan)
  have hwritten : ∀ e ∈ run₀'.params, e.2.writable = true :=
    Validator.forall_plan (P := fun v : Value => v.writable = true) hwritable hready.planned
  refine ⟨v, plan', run₀', hbuilt, hready.planned, ?_⟩
  refine and_assoc.1 ⟨Request.Outcome.designed_iff_and_uncaught_iff ?_, fun hv before name after _ =>
    hdocumented.stuck_iff hconsistent.named hv .none plan' hwritten before name⟩
  obtain ⟨hfree, ⟨b, hb⟩ | ⟨name, hunknown⟩⟩ | ⟨hstuck, e, he, hconversion⟩ := hready.answer_cases hdocumented
  · by_cases hshown : ∀ m ∈ (v.validate .none (targets.map .str)).validator.messages, Shown platform.prints m
    · refine .inl ⟨?_, designed_of_ok verbose hplatform hload hbuilt hb hshown⟩
      rintro (hstuck | ⟨-, m, hm, hnot⟩)
      · exact hfree hstuck
      · exact hnot (hshown m hm)
    · have hunshown : Unshown platform.prints (v.validate .none (targets.map .str)) :=
        ⟨⟨b, hb⟩, by simpa using hshown⟩
      exact .inr ⟨.inr hunshown, uncaught_of_unshown verbose hload hbuilt hunshown⟩
  · refine .inl ⟨?_, designed_of_error verbose hload hbuilt hunknown rfl _⟩
    rintro (hstuck | ⟨⟨b, hb⟩, -⟩)
    · exact hfree hstuck
    · cases hb.symm.trans hunknown
  · exact .inr ⟨.inl hstuck, _, uncaught_of_error verbose hload hbuilt he hconversion.thrown.isReported⟩

/-- A profile with one limit on the length of a text, and a text. -/
def limited (label argument : String) : FileTree :=
  .directory [
    ("p.yaml", .file ("\"fields\":\n  \"login\":\n    \"label\": \"" ++ label
      ++ "\"\n    \"min_length\": \"" ++ argument ++ "\"\n")),
    ("v.yaml", .file "\"login\": \"x\"\n")]

/-- The validator of the profile with the text for its parameter. -/
def limitedValidator? (label argument : String) : Option Validator :=
  (loadParams .plain (limited label argument) "v.yaml").toOption.bind fun x =>
    (buildValidator .plain (limited label argument) "p.yaml" {} (.ok x)).1.toOption

/-- The outcome of checking the text against the profile. -/
def limitedOutcome (label argument : String) : Request.Outcome :=
  Request.run .plain (limited label argument) ⟨false, .validateParams "p.yaml" "v.yaml" [] {}⟩

/-- The profile is found to be valid, and the text is loaded. -/
theorem accepted_limited (label argument : String)
    (hvalid : (Request.run .plain (limited label argument) ⟨false, .checkProfile "p.yaml" false⟩).out.getLast? =
      some "Profile is valid.")
    (htexts : (loadParams .plain (limited label argument) "v.yaml").toOption.any mapsTexts = true) :
    Accepted .plain (limited label argument) "p.yaml" ∧
      ∃ x, loadParams .plain (limited label argument) "v.yaml" = .ok x ∧ mapsTexts x = true := by
  refine ⟨⟨false, false, hvalid⟩, ?_⟩
  obtain ⟨x, hx, hmaps⟩ := (Option.any_eq_true _ _).1 htexts
  exact ⟨x, ok_of_toOption hx, hmaps⟩

/-- A limit that is no number is found to be valid, and a fault is left over when it is checked. -/
theorem uncaught_limited : Accepted .plain (limited "Login" "abc") "p.yaml" ∧
    (∃ x, loadParams .plain (limited "Login" "abc") "v.yaml" = .ok x ∧ mapsTexts x = true) ∧
    ∃ e, (limitedOutcome "Login" "abc").uncaught = some e := by
  obtain ⟨haccepted, hloaded⟩ := accepted_limited "Login" "abc" (by decide +kernel) (by decide +kernel)
  exact ⟨haccepted, hloaded, Option.isSome_iff_exists.1 (by decide +kernel)⟩

/-- With a limit of three the message for a text of one character is shown. With a limit that is no number the
turn of the field comes to an argument that cannot be read, and a fault is left over. With a label that cannot be
printed the message cannot be shown, and a fault is left over as well. -/
theorem designed_iff_limited :
    (∃ v plan run₀, limitedValidator? "Login" "3" = some v ∧
      Returns (v.resetFields.plan []) v.start plan run₀ ∧
      (limitedOutcome "Login" "3").Designed (v.validate .none []).validator.messages ∧
      ¬(v.GetsStuck .none plan run₀.params ∨ Unshown Platform.plain.prints (v.validate .none []))) ∧
    (∃ v plan run₀, limitedValidator? "Login" "abc" = some v ∧
      Returns (v.resetFields.plan []) v.start plan run₀ ∧
      (∃ e, (limitedOutcome "Login" "abc").uncaught = some e) ∧
      ∃ name ∈ plan.selected, v.Unreadable .none plan run₀.params name) ∧
    ∃ v, limitedValidator? "\\ud800" "3" = some v ∧
      Unshown Platform.plain.prints (v.validate .none []) ∧
      ∃ e, (limitedOutcome "\\ud800" "3").uncaught = some e := by
  have hfound : ∀ {label argument : String} {x : Value} {v : Validator},
      loadParams .plain (limited label argument) "v.yaml" = .ok x →
      (buildValidator .plain (limited label argument) "p.yaml" {} (.ok x)).1 = .ok v →
      limitedValidator? label argument = some v := by
    intro label argument x v hload hbuilt
    unfold limitedValidator?
    rw [hload]
    dsimp only [Except.toOption, Option.bind_some]
    rw [hbuilt]
  refine ⟨?_, ?_, ?_⟩
  · obtain ⟨haccepted, x, hload, htexts⟩ :=
      accepted_limited "Login" "3" (by decide +kernel) (by decide +kernel)
    obtain ⟨v, plan, run₀, hbuilt, hplan, hdesigned, huncaught, -⟩ :=
      designed_iff Platform.dependable_plain haccepted hload htexts false [] {}
    have hnone : (limitedOutcome "Login" "3").uncaught.isNone = true := by decide +kernel
    have hfree : ¬(v.GetsStuck .none plan run₀.params ∨
        Unshown Platform.plain.prints (v.validate .none [])) := by
      intro htrouble
      obtain ⟨e, he⟩ := huncaught.2 htrouble
      change (limitedOutcome "Login" "3").uncaught = some e at he
      rw [he] at hnone
      cases hnone
    exact ⟨v, plan, run₀, hfound hload hbuilt, hplan, hdesigned.2 hfree, hfree⟩
  · obtain ⟨haccepted, ⟨x, hload, htexts⟩, hfault⟩ := uncaught_limited
    obtain ⟨v, plan, run₀, hbuilt, hplan, -, huncaught, hstuck⟩ :=
      designed_iff Platform.dependable_plain haccepted hload htexts false [] {}
    have hv := hfound hload hbuilt
    have hcomputed : (limitedValidator? "Login" "abc").all (fun v =>
        decide v.Writable && (v.validate .none []).answer.toOption.isNone) = true := by decide +kernel
    rw [hv, Option.all_some, Bool.and_eq_true, decide_eq_true_eq] at hcomputed
    obtain ⟨hwritable, hfails⟩ := hcomputed
    obtain ⟨before, name, after, hsplit, -, hturn⟩ | ⟨⟨b, hb⟩, -⟩ := huncaught.1 hfault
    · refine ⟨v, plan, run₀, hv, hplan, hfault, name, ?_, (hstuck hwritable before name after hsplit).1 hturn⟩
      rw [hsplit]
      exact List.mem_append_right _ List.mem_cons_self
    · change (v.validate .none []).answer = .ok b at hb
      rw [hb] at hfails
      cases hfails
  · obtain ⟨haccepted, x, hload, htexts⟩ :=
      accepted_limited "\\ud800" "3" (by decide +kernel) (by decide +kernel)
    obtain ⟨v, plan, run₀, hbuilt, -, -, huncaught, -⟩ :=
      designed_iff Platform.dependable_plain haccepted hload htexts false [] {}
    have hv := hfound hload hbuilt
    have hcomputed : (limitedValidator? "\\ud800" "3").all (fun v =>
        (v.validate .none []).answer.toOption.isSome && (v.validate .none []).validator.messages.any fun m =>
          !(Request.Outcome.plainLine ("  ✗ " ++ m.text)).toList.all Platform.plain.prints) = true := by
      decide +kernel
    rw [hv, Option.all_some, Bool.and_eq_true] at hcomputed
    obtain ⟨b, hb⟩ := Option.isSome_iff_exists.1 hcomputed.1
    obtain ⟨m, hm, hbad⟩ := List.any_eq_true.1 hcomputed.2
    have hunshown : Unshown Platform.plain.prints (v.validate .none []) := by
      refine ⟨⟨b, ok_of_toOption hb⟩, m, hm, fun hshown => ?_⟩
      rw [hshown.2] at hbad
      cases hbad
    exact ⟨v, hv, hunshown, huncaught.2 (.inr hunshown)⟩

/-- No fault is left over from the validation of texts against a profile that is found to be valid. -/
def AlwaysCaught : Prop :=
  ∀ {platform : Platform} {files : FileTree} {profile params : String} {x : Value}, platform.Dependable →
    Accepted platform files profile → loadParams platform files params = .ok x → mapsTexts x = true →
      ∀ (verbose : Bool) (targets : List String) (policy : Policy),
        (Request.run platform files ⟨verbose, .validateParams profile params targets policy⟩).uncaught = none

/-- A fault is left over from a limit on the length of a text that is no number. -/
theorem not_alwaysCaught : ¬AlwaysCaught := by
  intro h
  obtain ⟨haccepted, ⟨x, hload, htexts⟩, e, he⟩ := uncaught_limited
  cases (h Platform.dependable_plain haccepted hload htexts false [] {}).symm.trans he

end Command

end ParamCheck
