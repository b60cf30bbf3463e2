/-
# Handles are permanent

A handle is the number of a linker and the number of a module, and the numbers of modules that were
discarded are used again.  Still a handle that was given out once stands for the same module ever
after, and is answered in the same way, whatever else is requested from whichever linkers.

Handles are given out of loaded modules only, and those are retained with all that they reach.  So
their numbers never become free, their trees stay, and with them what a lookup finds.  And no two
linkers of a session have the same number, so a handle of one is refused by all others.
-/
import DynamicLinker.Proofs.DeclaredTrees
import DynamicLinker.Proofs.Openings
import DynamicLinker.Proofs.Representation
import DynamicLinker.Proofs.Retention

namespace DynamicLinker

namespace Linker

/-- A handle that a linker gives out, for a module of the given name and load bias, is still good at
a later time: it stands for that module, and every answer is the one that the linker gave. -/
structure Answers (linker later : Linker) (handle : Handle) (name : Soname) (bias : UInt64) :
    Prop where
  /-- The handle stands for a loaded module of the name, mapped at the load bias. -/
  denotes : ∃ m, later.moduleOf handle = .ok m ∧ m.name = name ∧ m.bias = bias
  /-- The handle may be given back. -/
  close_eq : later.close handle = .ok ()
  /-- The direct dependencies are the same. -/
  depNames_eq : later.depNames handle = linker.depNames handle
  /-- The tree is the same. -/
  treeNames_eq : later.treeNames handle = linker.treeNames handle
  /-- Every symbol is looked up with the same result, be it an address or an error. -/
  lookup_eq (symbol : String) : later.lookup handle symbol = linker.lookup handle symbol
  /-- A request to open the name, if it succeeds, gives the same handle. -/
  openModule_eq {files : FileSet} {word : Int32} {handle' : Handle} :
    (later.openModule files name word).result = .ok handle' → handle' = handle
  /-- The list of loaded modules has the handle with the name and the load bias, and with no other
  name. -/
  listed {info : ModuleInfo} : info ∈ later.loadedModules →
    (info.handle = handle ↔ info.name = name) ∧ (info.handle = handle → info.bias = bias)

/-- A handle that a linker refuses in every call. -/
structure Rejects (linker : Linker) (handle : Handle) : Prop where
  /-- It cannot be given back. -/
  close_eq : linker.close handle = .error (.ofCause (.invalidHandle handle))
  /-- It has no direct dependencies. -/
  depNames_eq : linker.depNames handle = .error (.ofCause (.invalidHandle handle))
  /-- It has no tree. -/
  treeNames_eq : linker.treeNames handle = .error (.ofCause (.invalidHandle handle))
  /-- No symbol can be looked up through it. -/
  lookup_eq (symbol : String) :
    linker.lookup handle symbol = .error (.ofCause (.invalidHandle handle))

variable {linker later : Linker} {history history' : History} {handle : Handle} {m : Module}
  {info : ModuleInfo}

/-- A linker refuses the handles of others. -/
lemma rejects_of_ne (h : handle.linker ≠ linker.id) : linker.Rejects handle := by
  have hinvalid : linker.moduleOf handle = .error (.ofCause (.invalidHandle handle)) := by
    rw [moduleOf, if_neg h]
  refine ⟨?_, ?_, ?_, fun symbol => ?_⟩
  · rw [close, hinvalid]
    rfl
  · rw [depNames, hinvalid]
    rfl
  · rw [treeNames, hinvalid]
    rfl
  · rw [lookup, hinvalid]
    rfl

/-- What is listed between calls is a module, with its own handle. -/
lemma Sound.exists_of_mem_loadedModules (h : linker.Sound history)
    (hinfo : info ∈ linker.loadedModules) :
    ∃ m, linker.moduleOf info.handle = .ok m ∧ m.name = info.name ∧ m.bias = info.bias := by
  rw [loadedModules_eq, LinkMap.loadedModules, List.mem_map] at hinfo
  obtain ⟨m, hm, rfl⟩ := hinfo
  obtain ⟨id, -, hget⟩ := List.mem_filterMap.mp hm
  have hid : m.id = id := h.inOrder.consistent.id_eq hget
  exact ⟨m, h.moduleOf_eq (hid ▸ hget), rfl, rfl⟩

/-- The handle that a request gives stands for the module of the name, in the linker that the
request leaves. -/
lemma Sound.moduleOf_openModule (h : linker.Sound history) {files : FileSet} {name : Soname}
    {word : Int32} (hopen : (linker.openModule files name word).result = .ok handle) :
    ∃ m, (linker.openModule files name word).linker.moduleOf handle = .ok m ∧ m.name = name := by
  have hafter := h.openModule files name word
  obtain ⟨hid, hnamed⟩ := h.named?_openModule hopen
  obtain ⟨m, hm, hname⟩ := hafter.wellFormed.named_iff.mp hnamed
  have hkept := (h.inOrder.retains_openModule files name word).id_eq
  have hhandle : handle = ⟨(linker.openModule files name word).linker.id, handle.module⟩ := by
    rw [hkept, ← hid]
  rw [hhandle]
  exact ⟨m, hafter.moduleOf_eq hm, hname⟩

/-- **A linker that has retained all modules answers to their handles as before.** -/
theorem Retains.answers (h : linker.Retains later) (hlinker : linker.Sound history)
    (hlater : later.Sound history') (hm : linker.moduleOf handle = .ok m) :
    linker.Answers later handle m.name m.bias := by
  obtain ⟨hid, hget⟩ := moduleOf_eq_ok hm
  have hlive : (linker.modules.get? handle.module).isSome := Option.isSome_of_eq_some hget
  have hconsistent := hlinker.inOrder.consistent
  have hmapping := h.mapping?_eq (LinkMap.mapping?_of_get? hget)
  obtain ⟨m', hget', hsame⟩ := LinkMap.mapping?_eq_some.mp hmapping
  have hhandle : handle = ⟨later.id, handle.module⟩ := by rw [h.id_eq, ← hid]
  have hm' : later.moduleOf handle = .ok m' := by
    rw [hhandle]
    exact hlater.moduleOf_eq hget'
  have hname : m'.name = m.name := congrArg Mapping.name hsame
  have hbias : m'.bias = m.bias := congrArg Mapping.bias hsame
  have htree : later.modules.tree handle.module = linker.modules.tree handle.module :=
    h.tree_eq hconsistent hlive
  have hmappings : ∀ t ∈ linker.modules.tree handle.module,
      later.modules.mapping? t = linker.modules.mapping? t := fun t ht =>
    h.mapping?_eq_of_live (hconsistent.live_of_reaches (LinkMap.mem_tree.mp ht) hlive)
  refine ⟨⟨m', hm', hname, hbias⟩, ?_, ?_, ?_, fun symbol => ?_,
    fun {files word handle'} hopen => ?_, fun {info} hinfo => ?_⟩
  · rw [close, hm']
    rfl
  · rw [depNames_eq_ok hm', depNames_eq_ok hm, LinkMap.depNames_congr (h.deps_eq hlive)]
    exact fun t ht => h.mapping?_eq_of_live (hconsistent.dep_live ht)
  · rw [treeNames_eq_ok hm', treeNames_eq_ok hm, htree, LinkMap.namesOf_congr hmappings]
  · have hlookup : later.modules.lookup handle.module m'.name symbol
        = linker.modules.lookup handle.module m.name symbol := by
      rw [LinkMap.lookup, LinkMap.lookup, LinkMap.localScope, LinkMap.localScope, htree, hname]
      exact LinkMap.addressIn_congr hmappings
    rw [lookup, lookup, hm', hm]
    exact hlookup
  · -- the name has kept its module, also in the linker that the request leaves
    obtain ⟨hid', hnamed⟩ := hlater.named?_openModule hopen
    have hopened := (h.trans (hlater.inOrder.retains_openModule files m.name word)).named?
      hconsistent (hlater.openModule files m.name word).inOrder.consistent
      (hconsistent.named_of_mapping (LinkMap.mapping?_of_get? hget))
    have hmodule : handle'.module = handle.module :=
      Option.some.inj (hnamed.symm.trans hopened)
    rw [hhandle, ← hid', ← hmodule]
  · obtain ⟨m₁, hm₁, hname₁, hbias₁⟩ := hlater.exists_of_mem_loadedModules hinfo
    obtain ⟨hid₁, hget₁⟩ := moduleOf_eq_ok hm₁
    have hdenotes : info.handle = handle → m₁ = m' := by
      rintro rfl
      exact Except.ok.inj (hm₁.symm.trans hm')
    refine ⟨⟨fun heq => ?_, fun heq => ?_⟩, fun heq => ?_⟩
    · rw [← hname₁, hdenotes heq, hname]
    · have hmodule := hlater.inOrder.consistent.id_unique (LinkMap.mapping?_of_get? hget₁)
        (LinkMap.mapping?_of_get? hget') (hname₁.trans (heq.trans hname.symm))
      rw [hhandle, ← hid₁, ← hmodule]
    · rw [← hbias₁, hdenotes heq, hbias]

end Linker

/-! ## The linkers of a session -/

namespace Session

variable {session later : Session} {request : Request} {place : Nat} {name : Soname}
  {handle : Handle}

/-- The linkers of a session have different numbers, of those that were given out. -/
structure Numbered (session : Session) : Prop where
  /-- The number of a linker was given out. -/
  id_le {place : Nat} {linker : Linker} :
    session.linker? place = some linker → linker.id ≤ session.created
  /-- Two linkers with the same number are at the same place. -/
  place_eq {place place' : Nat} {linker linker' : Linker} : session.linker? place = some linker →
    session.linker? place' = some linker' → linker.id = linker'.id → place = place'

lemma id_of_create {id : LinkerId} {space : AddressSpace} {startup : List StartupModule}
    {linker : Linker} (hcreate : Linker.create id space startup = .ok linker) : linker.id = id := by
  rw [Linker.create] at hcreate
  cases hmodules : startup.foldlM LinkMap.addStartup LinkMap.empty with
  | error e =>
    rw [hmodules] at hcreate
    cases hcreate
  | ok modules =>
    rw [hmodules] at hcreate
    rw [← Except.ok.inj hcreate]

/-- A call keeps the number of a linker. -/
lemma id_perform {linker : Linker} {history : History} (h : linker.Reached history)
    (files : FileSet) (call : Call) : (linker.perform files call).linker.id = linker.id :=
  (h.sound.inOrder.retains_perform files call).id_eq

/-- A later session has every linker at its place, with all its modules. -/
def Retains (session later : Session) : Prop :=
  ∀ place linker, session.linker? place = some linker →
    ∃ now, later.linker? place = some now ∧ linker.Retains now

lemma LinkersReached.retains_step (h : session.LinkersReached) (request : Request) :
    session.Retains (session.step request).2 := by
  intro place linker hlinker
  cases session.change_step request with
  | same hlinker? hcreated => exact ⟨linker, (hlinker? place).trans hlinker, .refl linker⟩
  | created hfree hcreate hlinker? hcreated =>
    refine ⟨linker, ?_, .refl linker⟩
    rw [hlinker?, if_neg, hlinker]
    rintro rfl
    simp [hfree] at hlinker
  | @called calledAt called call hcalled hlinker? hcreated =>
    by_cases hplace : place = calledAt
    · subst hplace
      obtain rfl : called = linker := Option.some.inj (hcalled.symm.trans hlinker)
      obtain ⟨history, hreached⟩ := h _ _ hcalled
      exact ⟨_, (hlinker? place).trans (if_pos rfl),
        hreached.sound.inOrder.retains_perform session.files call⟩
    · exact ⟨linker, by rw [hlinker?, if_neg hplace, hlinker], .refl linker⟩

lemma LinkersReached.retains_after (h : session.LinkersReached) (requests : List Request) :
    session.Retains (session.after requests) := by
  induction requests generalizing session with
  | nil => exact fun place linker hlinker => ⟨linker, hlinker, .refl linker⟩
  | cons request requests ih =>
    intro place linker hlinker
    obtain ⟨next, hnext, hretains⟩ := h.retains_step request place linker hlinker
    obtain ⟨now, hnow, hretains'⟩ := ih (h.step request) place next hnext
    exact ⟨now, hnow, hretains.trans hretains'⟩

lemma Numbered.step (h : session.Numbered) (hreached : session.LinkersReached)
    (request : Request) : (session.step request).2.Numbered := by
  cases session.change_step request with
  | same hlinker? hcreated =>
    refine ⟨fun hlinker => ?_, fun hlinker hlinker' => ?_⟩
    · rw [hlinker?] at hlinker
      exact hcreated ▸ h.id_le hlinker
    · rw [hlinker?] at hlinker hlinker'
      exact h.place_eq hlinker hlinker'
  | created hfree hcreate hlinker? hcreated =>
    -- the number of the new linker is greater than all that were given out
    have hnew := id_of_create hcreate
    have hold : ∀ {place linker}, session.linker? place = some linker →
        linker.id < session.created + 1 := fun hlinker => Nat.lt_succ_of_le (h.id_le hlinker)
    refine ⟨fun {place linker} hlinker => ?_,
      fun {place place' linker linker'} hlinker hlinker' hid => ?_⟩
    · rw [hlinker?] at hlinker
      rw [hcreated]
      split at hlinker
      · rw [← Option.some.inj hlinker, hnew]
      · exact Nat.le_of_lt (hold hlinker)
    · rw [hlinker?] at hlinker hlinker'
      split at hlinker <;> split at hlinker'
      · rename_i hplace hplace'
        rw [hplace, hplace']
      · rw [← Option.some.inj hlinker, hnew] at hid
        exact absurd hid (Nat.ne_of_gt (hold hlinker'))
      · rw [← Option.some.inj hlinker', hnew] at hid
        exact absurd hid (Nat.ne_of_lt (hold hlinker))
      · exact h.place_eq hlinker hlinker' hid
  | called hcalled hlinker? hcreated =>
    -- the linker that is called keeps its place and its number
    have hback : ∀ {place linker}, (session.step request).2.linker? place = some linker →
        ∃ before, session.linker? place = some before ∧ before.id = linker.id := by
      intro place linker hlinker
      rw [hlinker?] at hlinker
      split at hlinker
      · rename_i hplace
        obtain ⟨history, hcall⟩ := hreached _ _ hcalled
        exact ⟨_, hplace ▸ hcalled, by rw [← Option.some.inj hlinker, id_perform hcall]⟩
      · exact ⟨linker, hlinker, rfl⟩
    refine ⟨fun hlinker => ?_, fun hlinker hlinker' hid => ?_⟩
    · obtain ⟨before, hbefore, hsame⟩ := hback hlinker
      rw [hcreated, ← hsame]
      exact h.id_le hbefore
    · obtain ⟨before, hbefore, hsame⟩ := hback hlinker
      obtain ⟨before', hbefore', hsame'⟩ := hback hlinker'
      exact h.place_eq hbefore hbefore' (hsame.trans (hid.trans hsame'.symm))

/-- The linkers of a session have different numbers, whatever the requests were. -/
theorem numbered (requests : List Request) : (start.after requests).Numbered := by
  have hrun : ∀ (requests : List Request) (session : Session), session.Numbered →
      session.LinkersReached → (session.after requests).Numbered := by
    intro requests
    induction requests with
    | nil => exact fun _ h _ => h
    | cons request requests ih =>
      exact fun session h hreached => ih _ (h.step hreached request) (hreached.step request)
  refine hrun requests start ⟨fun hlinker => ?_, fun hlinker => ?_⟩ (linkersReached [])
  · simp [linker?, start] at hlinker
  · simp [linker?, start] at hlinker

end Session

/-! ## Handles that are given out -/

/-- A call is answered by a handle for a name: the name was asked for, or it is listed. -/
inductive Answer.Gives : Call → Answer → Soname → Handle → Prop where
  /-- The name was to be opened. -/
  | opened {name : Soname} {word : Int32} {handle : Handle} :
    Gives (.openModule name word) (.handle handle) name handle
  /-- The loaded modules were to be listed. -/
  | listed {infos : List ModuleInfo} {info : ModuleInfo} (hinfo : info ∈ infos) :
    Gives .list (.modules infos) info.name info.handle

namespace Session

variable {session later : Session} {request : Request} {place : Nat} {name : Soname}
  {handle : Handle} {call : Call} {answer : Answer}

/-- A request makes a call of the linker at a place, and is replied to with the answer. -/
inductive Answered (session : Session) : Request → Nat → Call → Answer → Prop where
  /-- The call was made directly. -/
  | direct {place : Nat} {call : Call} {answer : Answer} {events : List Event}
      (hreply : (session.step (.direct place call)).1 = .answered (.ok answer) events) :
      Answered session (.direct place call) place call answer
  /-- The call was made for a thread that is told of failures later. -/
  | recorded {thread : ThreadId} {place : Nat} {call : DlCall} {answer : Answer}
      {events : List Event}
      (hreply : (session.step (.recorded thread place call)).1 = .recorded (some answer) events) :
      Answered session (.recorded thread place call) place call.call answer

/-- The reply to a request gives out a handle of the linker at a place for a name. -/
def Gives (session : Session) (request : Request) (place : Nat) (name : Soname)
    (handle : Handle) : Prop :=
  ∃ call answer, session.Answered request place call answer ∧ answer.Gives call name handle

/-- An answer is that of the linker at the place, which is then left as by the call. -/
lemma Answered.exists_linker (h : session.Answered request place call answer) :
    ∃ linker, session.linker? place = some linker ∧
      (linker.perform session.files call).result = .ok answer ∧
      (session.step request).2.linker? place
        = some (linker.perform session.files call).linker := by
  cases h with
  | direct hreply =>
    simp only [Session.step] at hreply ⊢
    cases hcall : session.call place call with
    | none => simp [hcall] at hreply
    | some called =>
      obtain ⟨linker, hlinker, houtcome, -, hlater⟩ := change_call hcall
      simp only [hcall, Reply.answered.injEq] at hreply
      refine ⟨linker, hlinker, houtcome ▸ hreply.1, ?_⟩
      simp [hlater, houtcome]
  | @recorded thread _ call _ events hreply =>
    simp only [Session.step, callRecorded] at hreply ⊢
    cases hcall : session.call place call.call with
    | none => simp [hcall] at hreply
    | some called =>
      obtain ⟨linker, hlinker, houtcome, -, hlater⟩ := change_call hcall
      simp only [hcall, Reply.recorded.injEq] at hreply
      refine ⟨linker, hlinker, ?_, ?_⟩
      · cases hresult : called.1.result with
        | error e => simp [hresult, record] at hreply
        | ok found =>
          simp only [hresult, record, Option.some.injEq] at hreply
          rw [← houtcome, hresult, hreply.1]
      · refine ((called.2.record_linkers thread called.1.result) place).1.trans ?_
        simp [hlater, houtcome]

/-- A handle that is given out for a name stands for the module of that name. -/
lemma Gives.exists_module (h : session.Gives request place name handle)
    (hreached : session.LinkersReached) :
    ∃ linker history m, (session.step request).2.linker? place = some linker ∧
      linker.Reached history ∧ linker.moduleOf handle = .ok m ∧ m.name = name := by
  obtain ⟨call, answer, hanswered, hgives⟩ := h
  obtain ⟨linker, hlinker, hresult, hlater⟩ := hanswered.exists_linker
  obtain ⟨history, hbefore⟩ := hreached place linker hlinker
  have hafter := hbefore.perform session.files call
  refine ⟨(linker.perform session.files call).linker,
    history.after session.files (linker.callProgress session.files call), ?_⟩
  cases hgives with
  | @opened _ word _ =>
    cases hopen : (linker.openModule session.files name word).result with
    | error e => simp [Linker.perform, hopen, Except.map] at hresult
    | ok handle' =>
      simp only [Linker.perform, hopen, Except.map, Except.ok.injEq, Answer.handle.injEq] at hresult
      subst hresult
      obtain ⟨m, hm, hname⟩ := hbefore.sound.moduleOf_openModule hopen
      exact ⟨m, hlater, hafter, hm, hname⟩
  | listed hinfo =>
    simp only [Linker.perform, Except.ok.injEq, Answer.modules.injEq] at hresult
    rw [← hresult] at hinfo
    obtain ⟨m, hm, hname, -⟩ := hbefore.sound.exists_of_mem_loadedModules hinfo
    exact ⟨m, hlater, hafter, hm, hname⟩

/-- A handle that was given out for a module of a linker, as a later session knows it. -/
structure Stands (issued later : Session) (place : Nat) (name : Soname) (bias : UInt64)
    (handle : Handle) : Prop where
  /-- The linker that gave it out accepts it, and answers as it did. -/
  answers : ∃ linker now, issued.linker? place = some linker ∧ later.linker? place = some now ∧
    linker.Answers now handle name bias
  /-- Every other linker refuses it. -/
  rejects {other : Nat} {linker : Linker} :
    other ≠ place → later.linker? other = some linker → linker.Rejects handle
  /-- It is given out by no other linker and for no other name. -/
  unique {request : Request} {other : Nat} {name' : Soname} :
    later.Gives request other name' handle → other = place ∧ name' = name

/-- **Handles are permanent.**  Whatever was requested before and is requested afterwards, of
whichever linkers, a handle that is given out for a name is accepted by its linker and refused by
the others, stands for the module of that name, is given out again for that name and no other, and
is answered as it would have been at first. -/
theorem handles_permanent (requests : List Request) {request : Request} {place : Nat}
    {name : Soname} {handle : Handle}
    (hgives : (start.after requests).Gives request place name handle) :
    ∃ bias, ∀ more, ((start.after requests).step request).2.Stands
      (((start.after requests).step request).2.after more) place name bias handle := by
  have hbefore := linkersReached requests
  have hissued := hbefore.step request
  obtain ⟨linker, history, m, hlinker, hreached, hm, rfl⟩ := hgives.exists_module hbefore
  refine ⟨m.bias, fun more => ?_⟩
  have hlater := hissued.after more
  have hnumbered : (((start.after requests).step request).2.after more).Numbered := by
    have hall := numbered (requests ++ request :: more)
    rwa [after, List.foldl_append, List.foldl_cons] at hall
  obtain ⟨now, hnow, hretains⟩ := hissued.retains_after more place linker hlinker
  obtain ⟨history', hreached'⟩ := hlater place now hnow
  have hid : handle.linker = now.id := (Linker.moduleOf_eq_ok hm).1.trans hretains.id_eq.symm
  refine ⟨⟨linker, now, hlinker, hnow, hretains.answers hreached.sound hreached'.sound hm⟩,
    fun {other linker'} hne hlinker' => ?_, fun {request' other name'} hgives' => ?_⟩
  · refine Linker.rejects_of_ne fun hsame => hne ?_
    exact hnumbered.place_eq hlinker' hnow (hsame.symm.trans hid)
  · -- in the session after that request there is one linker of the number, with one such module
    obtain ⟨linker₁, history₁, m₁, hlinker₁, hreached₁, hm₁, rfl⟩ := hgives'.exists_module hlater
    obtain ⟨now₁, hnow₁, hretains₁⟩ := hlater.retains_step request' place now hnow
    have hid₁ : linker₁.id = now₁.id := by
      rw [← (Linker.moduleOf_eq_ok hm₁).1, hid, hretains₁.id_eq]
    have hplace := (hnumbered.step hlater request').place_eq hlinker₁ hnow₁ hid₁
    subst hplace
    obtain rfl : linker₁ = now₁ := Option.some.inj (hlinker₁.symm.trans hnow₁)
    have hmapping := (hretains.trans hretains₁).mapping?_eq
      (LinkMap.mapping?_of_get? (Linker.moduleOf_eq_ok hm).2)
    rw [LinkMap.mapping?_of_get? (Linker.moduleOf_eq_ok hm₁).2, Option.some.injEq] at hmapping
    exact ⟨rfl, congrArg Mapping.name hmapping⟩

/-- A handle of `a` is given out by the first of two linkers.  Then a request for `b` maps it as
module 1 and fails, and one for `c`, which needs `a`, uses the number again, while the other linker
loads `c` as its module 0.  The handle stands. -/
theorem handles_permanent_of_reused_numbers :
    ∃ requests request more bias,
      (start.after requests).Gives request 0 ⟨"a"⟩ ⟨1, 0⟩ ∧
      ((start.after (requests ++ request :: more)).linker? 0).map
        (fun linker => linker.loadedModules.map fun info => (info.handle, info.name, info.bias))
        = some [(⟨1, 0⟩, ⟨"a"⟩, 0x1000), (⟨1, 1⟩, ⟨"c"⟩, 0x3000)] ∧
      ((start.after (requests ++ request :: more)).linker? 1).map
        (fun linker => linker.loadedModules.map fun info => (info.handle, info.name, info.bias))
        = some [(⟨2, 1⟩, ⟨"a"⟩, 0x2000), (⟨2, 0⟩, ⟨"c"⟩, 0x1000)] ∧
      ((start.after requests).step request).2.Stands
        (((start.after requests).step request).2.after more) 0 ⟨"a"⟩ bias ⟨1, 0⟩ := by
  let file (deps : List Soname) : StoredFile := .readable (.module ⟨deps, .empty, [], none⟩)
  let requests : List Request :=
    [.create ⟨0x1000, 0x1000⟩ [], .create ⟨0x1000, 0x1000⟩ [], .store ⟨"a"⟩ (some (file [])),
      .store ⟨"b"⟩ (some (file [⟨"z"⟩])), .store ⟨"c"⟩ (some (file [⟨"a"⟩]))]
  let request : Request := .direct 0 (.openModule ⟨"a"⟩ 2)
  let more : List Request := [.direct 0 (.openModule ⟨"b"⟩ 2), .direct 0 (.openModule ⟨"c"⟩ 2),
    .direct 1 (.openModule ⟨"c"⟩ 2)]
  have hreply : ((start.after requests).step request).1 = .answered (.ok (.handle ⟨1, 0⟩))
      [.retrieve ⟨"a"⟩, .decode ⟨"a"⟩ 0x1000, .relocate ⟨"a"⟩, .init ⟨"a"⟩] := by
    decide +kernel
  have hgives : (start.after requests).Gives request 0 ⟨"a"⟩ ⟨1, 0⟩ :=
    ⟨_, _, .direct hreply, .opened⟩
  obtain ⟨bias, hstands⟩ := handles_permanent requests hgives
  exact ⟨requests, request, more, bias, hgives, by decide +kernel, by decide +kernel,
    hstands more⟩

end Session

end DynamicLinker
