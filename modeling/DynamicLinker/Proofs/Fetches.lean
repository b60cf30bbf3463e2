/-
# What a load fetches

A load asks for the file of a name when no module has the name, and from then on a module has it.
So every file is fetched once, and at each moment the files that were fetched are those of the names
that have become known since the load began.  Whatever is new in the linker comes from these files:
the exports of a module are those of its file, and so are its declared dependencies.
-/
import DynamicLinker.Proofs.Progress
import DynamicLinker.Proofs.Retention

namespace DynamicLinker

/-! ## The names in events -/

/-- The names whose files were asked for. -/
def retrievals (events : List Event) : List Soname :=
  events.filterMap fun
    | .retrieve name => some name
    | _ => none

/-- The names whose files were decoded and mapped. -/
def decodings (events : List Event) : List Soname :=
  events.filterMap fun
    | .decode name _ => some name
    | _ => none

lemma retrievals_append (events events' : List Event) :
    retrievals (events ++ events') = retrievals events ++ retrievals events' :=
  List.filterMap_append

lemma decodings_append (events events' : List Event) :
    decodings (events ++ events') = decodings events ++ decodings events' :=
  List.filterMap_append

/-- A relocation fetches nothing. -/
lemma fetches_relocate {lm : LinkMap} {id : ModuleId} {name : Soname}
    {references : List Reference} {events : List Event} {result : Except LinkError Unit}
    (h : lm.relocate id name references = (events, result)) :
    retrievals events = [] ∧ decodings events = [] := by
  obtain rfl : (lm.relocate id name references).1 = events := by rw [h]
  constructor
  all_goals
    refine List.filterMap_eq_nil_iff.mpr fun event hevent => ?_
    rcases List.mem_cons.mp hevent with rfl | hevent
    · rfl
    · rcases mem_bindReferences hevent with ⟨_, _, rfl⟩ | ⟨_, _, rfl⟩ <;> rfl

/-- What is declared under a name is what the file declares that was decoded under it, if one
was. -/
lemma History.declared_after (history : History) (files : FileSet) (events : List Event)
    (name : Soname) :
    (history.after files events).declared name
      = if name ∈ decodings events then files.declares name else history.declared name := by
  induction events generalizing history with
  | nil => simp [after, decodings]
  | cons event events ih =>
    rw [after, List.foldl_cons]
    refine (ih (history.note files event)).trans ?_
    cases event with
    | decode decoded bias =>
      have hnames : decodings (.decode decoded bias :: events) = decoded :: decodings events := rfl
      by_cases hname : name = decoded
      · simp [hnames, note, hname]
      · simp [hnames, note, hname]
    | _ => rfl

/-! ## The files that were fetched -/

/-- A module has the exports of the file of its name. -/
def Mapping.FromFile (mapping : Mapping) (files : FileSet) : Prop :=
  ∃ image, files.retrieve mapping.name = .ok (.module image) ∧ mapping.exports = image.exports

/-- Modules from the file of one name have the same exports. -/
lemma Mapping.FromFile.exports_eq {files : FileSet} {mapping mapping' : Mapping}
    (h : mapping.FromFile files) (h' : mapping'.FromFile files)
    (hname : mapping'.name = mapping.name) : mapping'.exports = mapping.exports := by
  obtain ⟨image, hfile, hexports⟩ := h
  obtain ⟨image', hfile', hexports'⟩ := h'
  rw [hname, hfile] at hfile'
  cases hfile'
  rw [hexports, hexports']

/-- What a load that began with a linker has fetched so far. -/
structure Load.Fetched (linker : Linker) (files : FileSet) (load : Load) : Prop where
  /-- Every file that was asked for was mapped. -/
  retrievals_eq : retrievals load.events = decodings load.events
  /-- The files are those of the names that have become known. -/
  mem_decodings_iff {name : Soname} : name ∈ decodings load.events ↔
    (load.linker.modules.named? name).isSome ∧ linker.modules.named? name = none
  /-- A new module comes from the file of its name. -/
  fromFile {id : ModuleId} {mapping : Mapping} :
    load.linker.modules.mapping? id = some mapping → linker.modules.get? id = none →
      mapping.FromFile files

namespace Load.Fetched

variable {linker : Linker} {load next : Load} {files : FileSet} {name : Soname}

lemma start (linker : Linker) : (Load.start linker).Fetched linker files where
  retrievals_eq := rfl
  mem_decodings_iff {name} := by
    simp only [Load.start, decodings, List.filterMap_nil, List.not_mem_nil, false_iff, not_and]
    intro hsome hnone
    simp [hnone] at hsome
  fromFile hid hnone := by
    simp [Load.start, LinkMap.mapping?, hnone] at hid

lemma fetch (h : load.Fetched linker files) (hretains : linker.Retains load.linker)
    (hlinker : linker.InOrder []) (hproper : load.Proper)
    (hfree : load.linker.modules.named? name = none) {neededBy : Option Soname}
    (hfetch : load.fetch files neededBy name = .ok next) : next.Fetched linker files := by
  obtain ⟨image, hfile, rfl⟩ := fetch_eq_ok hfetch
  have hdecoded : ∀ bias, decodings [.retrieve name, .decode name bias] = [name] := fun _ => rfl
  have hretrieved : ∀ bias, retrievals [.retrieve name, .decode name bias] = [name] := fun _ => rfl
  refine ⟨?_, fun {n} => ?_, fun {id mapping} hid hnew => ?_⟩
  · rw [retrievals_append, decodings_append, hdecoded, hretrieved, h.retrievals_eq]
  · -- a name that was known when the load began is still known
    have hunknown : linker.modules.named? name = none := by
      refine Option.not_isSome_iff_eq_none.mp fun hknown => ?_
      have hstill := hretains.isSome_named? hlinker.consistent hproper.inOrder.consistent hknown
      simp [hfree] at hstill
    rw [decodings_append, hdecoded, List.mem_append, List.mem_singleton, h.mem_decodings_iff,
      LinkMap.named?_register]
    by_cases hn : n = name
    · simp [hn, hunknown]
    · simp [hn]
  · rw [LinkMap.mapping?_register] at hid
    split at hid
    · rw [← Option.some.inj hid]
      exact ⟨image, hfile, rfl⟩
    · exact h.fromFile hid hnew

/-- **A step fetches what becomes known by it.** -/
theorem advance (h : load.Fetched linker files) (hretains : linker.Retains load.linker)
    (hlinker : linker.InOrder []) (hproper : load.Proper) (hadvance : Advance files load next) :
    next.Fetched linker files := by
  cases hadvance with
  | fetch hfree hhead hfetch => exact h.fetch hretains hlinker hproper hfree hfetch
  | @link frame outer dep deps target hframes hremaining hfound =>
    refine ⟨h.retrievals_eq, fun {n} => h.mem_decodings_iff.trans ?_, fun hid => h.fromFile ?_⟩
    · rw [show (load.link frame deps outer target).linker.modules.named? n
        = load.linker.modules.named? n from LinkMap.named?_addDep _ _ n]
    · exact (LinkMap.mapping?_addDep).symm.trans hid
  | @relocate frame outer events hframes hremaining hevents =>
    obtain ⟨hretrieved, hdecoded⟩ := fetches_relocate hevents
    refine ⟨?_, fun {n} => ?_, fun hid => h.fromFile ?_⟩
    · rw [retrievals_append, decodings_append, hretrieved, hdecoded, h.retrievals_eq]
    · rw [decodings_append, hdecoded, List.append_nil, named?_settle]
      exact h.mem_decodings_iff
    · exact (load.linker.mapping?_settle frame.module _).symm.trans hid

end Load.Fetched

/-- What is fetched at each moment of a load. -/
lemma Linker.InOrder.fetched {linker : Linker} {files : FileSet} {name : Soname} {word : Int32}
    {load : Load} (h : linker.InOrder []) (hload : load ∈ linker.moments files name word) :
    load.Fetched linker files := by
  refine (Linker.moments_induction
    (P := fun load => load.Since linker ∧ load.Fetched linker files) h
    ⟨Load.Since.start h, Load.Fetched.start linker⟩ (fun a b hproper ha hab => ?_) hload).2.2
  obtain ⟨hsince, hfetched⟩ := ha
  exact ⟨hsince.advance h hproper hab,
    hfetched.advance (.of_extends h hsince.id_eq hsince.kept) h hproper hab⟩

end DynamicLinker
