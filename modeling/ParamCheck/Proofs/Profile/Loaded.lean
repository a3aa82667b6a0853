import ParamCheck.Proofs.Document
import ParamCheck.Proofs.Profile.Document
import ParamCheck.Proofs.Profile.Update

/-!
# Profiles that are loaded

A profile that is loaded from a file, or from all files of a directory, declares nothing but fields and mixins,
under names that are new in their sections, and what it declares of them is data (`Profile.Written`,
`Profile.written_of_load`). All that is relied on of what reads the files is that it reads data
(`Reader.ReadsData`).
-/

namespace ParamCheck

/-- Whether a document can make a declaration: it is one of a field or a mixin, and its directives are data. -/
def Declaration.isData : Declaration → Bool
  | field _ spec | mixin _ spec => spec.isData
  | filter .. | directive .. | child .. => false

/-- What is read from a document is data. -/
def Reader.ReadsData (read : Reader) : Prop := ∀ {text : String} {v : Value}, read text = .ok v → v.isData = true

namespace Profile

variable {p q other : Profile} {ds : List Declaration}

/-- A profile is sound, and documents can make all of its declarations. -/
structure Written (p : Profile) : Prop where
  sound : p.Sound
  data : ∀ d ∈ p.listed, d.isData = true

theorem written_new (name : String) : Written { name } where
  sound := Made.sound (.new name)
  data _ hd := absurd hd List.not_mem_nil

/-- A profile stays as documents can make it if such declarations are added. -/
theorem Written.declareAll (hp : p.Written) (hds : ∀ d ∈ ds, d.isData = true) :
    (declareAll ds p).1.Written := by
  refine ⟨hp.sound.declareAll ds, ?_⟩
  have hdata := hp.data
  clear hp
  induction ds generalizing p with
  | nil => exact hdata
  | cons d rest ih =>
    obtain ⟨hd, hrest⟩ := List.forall_mem_cons.1 hds
    rw [Profile.declareAll]
    cases h : p.declare d with
    | error e => exact hdata
    | ok q =>
      obtain ⟨-, -, rfl⟩ := declare_ok_iff.1 h
      refine ih hrest fun e he => ?_
      rcases List.mem_append.1 ((listed_extend_perm p [d]).mem_iff.1 he) with he | he
      · exact hdata e he
      · exact List.mem_singleton.1 he ▸ hd

/-! ## Documents -/

/-- The entries of a section of a document are data. -/
theorem isData_of_sectionEntries {source name : String} {data entries : Entries Value}
    (hdata : ∀ e ∈ data, e.2.isData = true) (h : sectionEntries source data name = .ok entries) :
    ∀ e ∈ entries, e.2.isData = true := by
  have hvalue : ((data.lookup (.str name)).getD .null).isData = true := by
    cases hv : data.lookup (.str name) with
    | none => rfl
    | some v =>
      obtain ⟨l, hl, -⟩ := Entries.exists_mem_of_lookup hv
      exact hdata _ hl
  unfold sectionEntries at h
  split at h
  · next hdict =>
    obtain rfl := Except.ok.inj h
    rw [hdict] at hvalue
    exact Value.isData_dict_iff.1 hvalue
  · split at h
    · cases h
    · obtain rfl := Except.ok.inj h
      exact List.forall_mem_nil _

/-- A section of a document adds declarations that documents can make. -/
theorem Written.declareSection (hp : p.Written) (mk : Value → Value → Declaration)
    (hmk : ∀ name spec, (mk name spec).isData = spec.isData) {source name : String} {data : Entries Value}
    (hdata : ∀ e ∈ data, e.2.isData = true)
    (h : Profile.declareSection (fun p name spec => p.declare (mk name spec)) source data name p = .ok q) :
    q.Written := by
  obtain ⟨entries, hentries, hcomplete⟩ := bind_eq_ok_iff.1 h
  have hsection := isData_of_sectionEntries hdata hentries
  -- All names are written where all is declared.
  have hnames : ∀ e ∈ entries, e.1.writable = true := by
    by_contra hnot
    obtain ⟨r, e, hfault, -⟩ := defineAll_of_not_writable mk (fun _ _ _ => rfl) (by simpa using hnot) p
    rw [hfault] at hcomplete
    cases hcomplete
  rw [defineAll_declareEntry hnames, defineAll_eq _ mk fun _ _ _ => rfl] at hcomplete
  have hds : ∀ d ∈ (completed entries).map fun e => mk e.1 e.2, d.isData = true := by
    intro d hd
    obtain ⟨e, he, rfl⟩ := List.mem_map.1 hd
    obtain ⟨⟨key, spec⟩, hkey, rfl⟩ := List.mem_map.1 he
    rw [hmk]
    cases spec with
    | null => rfl
    | _ => exact hsection (key, _) hkey
  have hwritten := hp.declareAll hds
  unfold complete at hcomplete
  split at hcomplete
  · next p' hp' =>
    obtain rfl := Except.ok.inj hcomplete
    rw [hp'] at hwritten
    exact hwritten
  · cases hcomplete

theorem written_of_ofSections {source : String} {data : Entries Value} (hdata : ∀ e ∈ data, e.2.isData = true)
    (h : ofSections source data = .ok p) : p.Written := by
  rw [ofSections_eq] at h
  obtain ⟨others, -, h⟩ := bind_eq_ok_iff.1 h
  split at h
  · obtain ⟨q, hfields, hmixins⟩ := bind_eq_ok_iff.1 h
    have hq : q.Written := (written_new _).declareSection .field (fun _ _ => rfl) hdata hfields
    exact hq.declareSection .mixin (fun _ _ => rfl) hdata hmixins
  · cases h

theorem written_of_ofDocument {source : String} {document : Value} (hdata : document.isData = true)
    (h : ofDocument source document = .ok p) : p.Written := by
  cases document with
  | null => exact written_of_ofSections (List.forall_mem_nil _) h
  | dict data => exact written_of_ofSections (Value.isData_dict_iff.1 hdata) h
  | _ => cases h

/-! ## Files -/

theorem Written.adding (hp : p.Written) (hother : other.Written) {file : Route} {s t : Journal}
    (h : Returns (p.adding file other) s q t) : q.Written := by
  have hupdate := hp.declareAll hother.data
  rw [← update_eq] at hupdate
  unfold Profile.adding at h
  split at h
  · next p' hp' =>
    obtain ⟨rfl, -⟩ := Returns.pure_iff.1 h
    rw [hp'] at hupdate
    exact hupdate
  · exact absurd h Returns.throw_iff.1

variable {read : Reader}

mutual

/-- What a file or a directory declares. -/
theorem written_of_loadTree (hread : read.ReadsData) {route : Route} (t : FileTree) {s u : Journal} {p : Profile}
    (h : Returns (loadTree read route t) s p u) : p.Written := by
  match t with
  | .file text =>
    rw [loadTree] at h
    simp only [Returns.bind_iff, Returns.liftM_iff] at h
    obtain ⟨document, _, ⟨hdocument, rfl⟩, _, _, -, hp, -⟩ := h
    exact written_of_ofDocument (hread hdocument) hp
  | .directory entries =>
    rw [loadTree] at h
    exact written_of_loadEntries hread entries (written_new _) h

/-- What the files of a directory add. -/
theorem written_of_loadEntries (hread : read.ReadsData) {route : Route} (entries : List (String × FileTree))
    {s u : Journal} {p q : Profile} (hp : p.Written)
    (h : Returns (loadTree.loadEntries read route entries p) s q u) : q.Written := by
  match entries with
  | [] =>
    rw [loadTree.loadEntries] at h
    obtain ⟨rfl, -⟩ := Returns.pure_iff.1 h
    exact hp
  | (name, t) :: rest =>
    rw [loadTree.loadEntries] at h
    split at h
    · simp only [Returns.bind_iff] at h
      obtain ⟨other, _, hother, next, _, hnext, hrest⟩ := h
      have hnextWritten := hp.adding (written_of_loadTree hread t hother) hnext
      exact written_of_loadEntries hread rest hnextWritten hrest
    · exact written_of_loadEntries hread rest hp h

end

/-- A profile that is loaded is one that documents can make. -/
theorem written_of_load (hread : read.ReadsData) {files : FileTree} {path : String} {s u : Journal}
    (h : Returns (load read files path) s p u) : p.Written := by
  unfold load at h
  split at h
  · exact written_of_loadTree hread _ h
  · exact absurd h Returns.throw_iff.1

/-! ## Declarations -/

/-- A profile that documents can make declares no filters, no directives and no children. -/
theorem Written.declarations_eq (hp : p.Written) :
    p.declarations = { fields := .dict p.fields, mixins := .dict p.mixins } := by
  have hnone : ∀ {α : Type} (mk : Value → α → Declaration) (l : Entries α),
      (∀ e ∈ l, mk e.1 e.2 ∈ p.listed) → (∀ name x, (mk name x).isData = false) → l = [] := by
    intro α mk l hmem hmk
    refine List.eq_nil_iff_forall_not_mem.2 fun e he => ?_
    have hdata := hp.data _ (hmem e he)
    rw [hmk] at hdata
    cases hdata
  have hfilters : p.filters = [] := hnone .filter _ (fun e he => by simp [listed, he]) fun _ _ => rfl
  have hdirectives : p.directives = [] := hnone .directive _ (fun e he => by simp [listed, he]) fun _ _ => rfl
  have hchildren : p.children = [] := hnone .child _ (fun e he => by simp [listed, he]) fun _ _ => rfl
  unfold declarations
  rw [hfilters, hdirectives, hchildren]

/-- Fields stand under different names. -/
theorem Sound.distinct_fields (hp : p.Sound) : p.fields.Distinct := by
  have happ := hp.apart
  unfold listed Apart at happ
  refine (List.pairwise_map.1 (List.pairwise_append.1 happ).1).imp fun {e f} hne hkey => ?_
  exact hne ⟨rfl, hkey⟩

/-- Fields stand under texts. -/
theorem Sound.named_fields (hp : p.Sound) : ∀ k ∈ p.fields.keys, ∃ s, k = .str s := by
  intro k hk
  obtain ⟨e, he, rfl⟩ := List.mem_map.1 hk
  obtain ⟨s, hs, -⟩ := (hp.each (.field e.1 e.2) (by simp [listed, he])).named
  exact ⟨s, hs⟩

/-- The directives of fields and mixins are data. -/
theorem Written.isData (hp : p.Written) :
    (∀ e ∈ p.fields, e.2.isData = true) ∧ ∀ e ∈ p.mixins, e.2.isData = true :=
  ⟨fun e he => hp.data (.field e.1 e.2) (by simp [listed, he]),
    fun e he => hp.data (.mixin e.1 e.2) (by simp [listed, he])⟩

end Profile

end ParamCheck
