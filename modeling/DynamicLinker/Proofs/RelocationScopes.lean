/-
# What a module is bound to, seen afterwards

When a module is relocated, all its own dependencies are recorded, but those of the modules around
it are not: a member of a dependency cycle is relocated while others of the cycle are still
loading.  So the tree in which its references are bound is that of the moment.  Later the tree has
more modules, and they may come in between.

A walk goes the same way as long as it meets modules whose dependencies stay the same.  Of the
modules in a tree, only those that are loading will get more dependencies, and the module that is
being relocated will not.  So a definition that has no other loading module before it is the first
one also in the tree that the module has in the end, and then it is found by a lookup as well.
-/
import DynamicLinker.Proofs.Runs
import DynamicLinker.Proofs.Scopes

namespace DynamicLinker

/-! ## Walks that go the same way -/

namespace LinkMap

variable {lm lm' : LinkMap} {discipline : Discipline} {seen agenda front back : List ModuleId}
  {t : ModuleId}

/-- A walk stays the same up to the first module whose dependencies have changed. -/
lemma walk_eq_append_cons (hwalk : lm.walk discipline seen agenda = front ++ t :: back)
    (hdeps : ∀ x ∈ front, lm'.deps x = lm.deps x) :
    ∃ back', lm'.walk discipline seen agenda = front ++ t :: back' := by
  fun_induction lm.walk discipline seen agenda generalizing front with
  | case1 => simp at hwalk
  | case2 seen id rest hmem ih =>
    rw [walk_cons_of_mem lm' discipline hmem]
    exact ih hwalk hdeps
  | case3 seen id rest hmem ih =>
    rw [walk_cons_of_not_mem lm' discipline hmem]
    cases front with
    | nil =>
      obtain ⟨rfl, -⟩ := List.cons.inj hwalk
      exact ⟨_, rfl⟩
    | cons x front =>
      obtain ⟨rfl, hrest⟩ := List.cons.inj hwalk
      obtain ⟨hhead, hfront⟩ := List.forall_mem_cons.mp hdeps
      obtain ⟨back', hback⟩ := ih hrest hfront
      rw [hhead, hback]
      exact ⟨back', rfl⟩

/-- A walk stays the same if the dependencies of all that it lists do. -/
lemma walk_congr (hdeps : ∀ x ∈ lm.walk discipline seen agenda, lm'.deps x = lm.deps x) :
    lm'.walk discipline seen agenda = lm.walk discipline seen agenda := by
  fun_induction lm.walk discipline seen agenda with
  | case1 => simp
  | case2 seen id rest hmem ih =>
    rw [walk_cons_of_mem lm' discipline hmem]
    exact ih hdeps
  | case3 seen id rest hmem ih =>
    obtain ⟨hhead, hrest⟩ := List.forall_mem_cons.mp hdeps
    rw [walk_cons_of_not_mem lm' discipline hmem, hhead, ih hrest]

end LinkMap

/-! ## Dependencies that are complete -/

namespace Load

variable {files : FileSet} {load next : Load} {frame : Frame} {outer : List Frame} {id : ModuleId}

/-- No dependency of a module is left to record. -/
def Complete (load : Load) (id : ModuleId) : Prop :=
  ∀ frame ∈ load.frames, frame.module = id → frame.remaining = []

/-- A module that is not loading is complete, and so is the innermost one when its frame has no
dependency left. -/
lemma Proper.complete (h : load.Proper) (hframes : load.frames = frame :: outer)
    (hremaining : frame.remaining = [])
    (hid : load.linker.modules.state? id = some .loading → id = frame.module) :
    load.Complete id := by
  intro g hg hmodule
  have hloading := h.inOrder.loading_iff.mpr (List.mem_map_of_mem hg)
  rw [hmodule] at hloading
  rw [hframes] at hg
  rcases List.mem_cons.mp hg with rfl | hg
  · exact hremaining
  · exact absurd (hmodule.trans (hid hloading)) (h.module_ne hframes hg)

/-- A step leaves the dependencies of a complete module as they are. -/
lemma Advance.deps_eq (hadvance : Advance files load next)
    (hlive : (load.linker.modules.get? id).isSome) (hcomplete : load.Complete id) :
    next.linker.modules.deps id = load.linker.modules.deps id ∧
      (next.linker.modules.get? id).isSome ∧ next.Complete id := by
  have hlive' : (next.linker.modules.get? id).isSome := by
    obtain ⟨m, hm⟩ := Option.isSome_iff_exists.mp hlive
    exact LinkMap.isSome_of_mapping? (hadvance.mapping?_eq (LinkMap.mapping?_of_get? hm))
  cases hadvance with
  | fetch hfree hhead hfetch =>
    obtain ⟨image, -, rfl⟩ := fetch_eq_ok hfetch
    refine ⟨LinkMap.deps_register, hlive', fun g hg hmodule => ?_⟩
    rcases List.mem_cons.mp hg with rfl | hg
    · subst hmodule
      simp at hlive
    · exact hcomplete g hg hmodule
  | @link frame outer dep deps target hframes hremaining hfound =>
    have hframe : frame.module ≠ id := by
      intro hmodule
      have hnil := hcomplete frame (by simp [hframes]) hmodule
      simp [hremaining] at hnil
    refine ⟨LinkMap.deps_addDep_of_ne hframe.symm, hlive', fun g hg hmodule => ?_⟩
    rcases List.mem_cons.mp hg with rfl | hg
    · exact absurd hmodule hframe
    · exact hcomplete g (by simp [hframes, hg]) hmodule
  | @relocate frame outer events hframes hremaining hevents =>
    refine ⟨load.linker.deps_settle frame.module id, hlive', fun g hg => ?_⟩
    exact hcomplete g (by simp [hframes, show g ∈ outer from hg])

/-- A step only appends to the dependencies of a module. -/
lemma Proper.deps_prefix_advance (h : load.Proper) (hnumbered : load.linker.modules.Numbered)
    (hadvance : Advance files load next) :
    next.linker.modules.Numbered ∧
      ∀ id, load.linker.modules.deps id <+: next.linker.modules.deps id := by
  cases hadvance with
  | fetch hfree hhead hfetch =>
    obtain ⟨image, -, rfl⟩ := fetch_eq_ok hfetch
    exact ⟨hnumbered.register _, fun id => by simp⟩
  | @link frame outer dep deps target hframes hremaining hfound =>
    have hframe : frame ∈ load.frames := by simp [hframes]
    obtain ⟨mapping, hmapping, -⟩ := h.mapping?_eq hframe
    exact ⟨hnumbered.addDep, hnumbered.deps_prefix_addDep (LinkMap.isSome_of_mapping? hmapping)
      (h.inOrder.consistent.live_of_named hfound)⟩
  | @relocate frame outer events hframes hremaining hevents =>
    exact ⟨hnumbered.settle frame.module, fun id => by simp⟩

end Load

namespace Linker

variable {linker after : Linker} {history : History} {files : FileSet} {root name : Soname}
  {word : Int32} {load last : Load} {id : ModuleId} {symbol : String} {address : UInt64}

/-- A module that is complete at a moment has the same dependencies at the last. -/
lemma InOrder.deps_last (h : linker.InOrder []) (hload : load ∈ linker.moments files root word)
    (hlast : (linker.moments files root word).getLast? = some last)
    (hlive : (load.linker.modules.get? id).isSome) (hcomplete : load.Complete id) :
    last.linker.modules.deps id = load.linker.modules.deps id := by
  refine (rel_last (R := fun a b => (a.linker.modules.get? id).isSome → a.Complete id →
      b.linker.modules.deps id = a.linker.modules.deps id ∧
        (b.linker.modules.get? id).isSome ∧ b.Complete id) h
    (fun _ hlive hcomplete => ⟨rfl, hlive, hcomplete⟩) (fun a b c hab hbc hlive hcomplete => ?_)
    (fun _ _ _ hab => hab.deps_eq) hload hlast hlive hcomplete).1
  obtain ⟨hdeps, hlive, hcomplete⟩ := hab hlive hcomplete
  obtain ⟨hdeps', hlast⟩ := hbc hlive hcomplete
  exact ⟨hdeps'.trans hdeps, hlast⟩

/-- From a moment to the last, a module only gets more dependencies behind those that it has. -/
lemma Sound.deps_prefix_last (h : linker.Sound history)
    (hload : load ∈ linker.moments files name word)
    (hlast : (linker.moments files name word).getLast? = some last) (id : ModuleId) :
    load.linker.modules.deps id <+: last.linker.modules.deps id := by
  refine (rel_last (R := fun a b => a.linker.modules.Numbered → b.linker.modules.Numbered ∧
      ∀ id, a.linker.modules.deps id <+: b.linker.modules.deps id) h.inOrder
    (fun _ ha => ⟨ha, fun _ => List.prefix_refl _⟩) (fun a b c hab hbc ha => ?_)
    (fun _ _ hproper hab ha => hproper.deps_prefix_advance ha hab) hload hlast
    (h.moment hload).2.numbered).2 id
  obtain ⟨hb, hgrows⟩ := hab ha
  obtain ⟨hc, hgrows'⟩ := hbc hb
  exact ⟨hc, fun id => (hgrows id).trans (hgrows' id)⟩

/-! ## The moment at which a reference is bound -/

/-- A reference that a load has bound was bound at the moment at which its module was relocated. -/
lemma InOrder.exists_relocation (h : linker.InOrder [])
    (hload : load ∈ linker.moments files root word)
    (hbind : .bind name symbol address ∈ load.events) :
    ∃ before ∈ linker.moments files root word, ∃ frame outer, before.frames = frame :: outer ∧
      frame.remaining = [] ∧ frame.name = name ∧
      before.linker.modules.bindingOf frame.module name symbol = .ok address := by
  have hchain : (linker.moments files root word).IsChain fun a b =>
      a ∈ linker.moments files root word ∧ Load.Advance files a b :=
    (isChain_moments h).imp_of_mem_imp fun a b ha _ hab => ⟨ha, hab⟩
  -- the event is an old one, or it comes from the step that is taken
  refine hchain.induction (fun load => .bind name symbol address ∈ load.events → _) _
    (fun a b hab ih hb => ?_) (fun hne hb => ?_) load hload hbind
  · obtain ⟨ha, hadvance⟩ := hab
    cases hadvance with
    | fetch hfree hhead hfetch =>
      obtain ⟨image, -, rfl⟩ := Load.fetch_eq_ok hfetch
      exact ih (by simpa using hb)
    | link hframes hremaining hfound => exact ih hb
    | @relocate frame outer events hframes hremaining hevents =>
      rcases List.mem_append.mp hb with hold | hnew
      · exact ih hold
      · obtain ⟨rfl, hbinding⟩ := LinkMap.bindingOf_of_relocate hevents hnew
        exact ⟨a, ha, frame, outer, hframes, hremaining, rfl, hbinding⟩
  · rw [head?_moments (List.head?_eq_some_head hne)] at hb
    simp [Load.start] at hb

/-! ## What a reference is bound to -/

/-- A symbol has a definition in a scope before which no module stands that is loading at a moment
of a load, but for the one that is being relocated. -/
def DefinedAhead (after : Linker) (load : Load) (id : ModuleId) (scope : Scope) (symbol : String) :
    Prop :=
  ∃ front definer back, scope = front ++ definer :: back ∧
    (after.modules.definition? symbol definer).isSome ∧
    ∀ t ∈ front, load.linker.modules.state? t = some .loading → t = id

/-- How a reference was bound when its module was relocated, seen from the linker as a request has
found it and as the request has left it. -/
structure BoundAt (linker after : Linker) (load : Load) (id : ModuleId) (symbol : String)
    (address : UInt64) : Prop where
  /-- The address is that of the first definition in the global scope, as the request has found it,
  followed by the tree that the module had at the moment. -/
  addressIn_eq (undefined : Cause) :
    after.modules.addressIn (linker.modules.globalScope ++ load.linker.modules.tree id) symbol
      undefined = .ok address
  /-- The tree that the module had is part of the one that it has. -/
  tree_subset : load.linker.modules.tree id ⊆ after.modules.tree id
  /-- The tree is the same if no other module of it was loading. -/
  tree_eq : (∀ t ∈ load.linker.modules.tree id,
    load.linker.modules.state? t = some .loading → t = id) →
      after.modules.tree id = load.linker.modules.tree id
  /-- The address is also that of the first definition when the tree is the one that the module has
  now, if no module that was loading stands before some definition. -/
  addressIn_eq_after (undefined : Cause) :
    DefinedAhead after load id (linker.modules.globalScope ++ load.linker.modules.tree id) symbol →
      after.modules.addressIn (linker.modules.globalScope ++ after.modules.tree id) symbol
        undefined = .ok address
  /-- If the global scope was empty besides, this is what a lookup gives. -/
  lookup_eq : linker.modules.globalScope = [] →
    DefinedAhead after load id (load.linker.modules.tree id) symbol →
      after.lookup ⟨after.id, id⟩ symbol = .ok address

/-- Between calls a lookup through the number of a module is one in its tree. -/
lemma InOrder.lookup_eq (h : linker.InOrder []) (hlive : (linker.modules.get? id).isSome)
    (symbol : String) :
    ∃ undefined, linker.lookup ⟨linker.id, id⟩ symbol
      = linker.modules.addressIn (linker.modules.tree id) symbol undefined := by
  obtain ⟨m, hm⟩ := Option.isSome_iff_exists.mp hlive
  have hloaded : m.isLoaded = true := by
    have hstate := h.state?_eq_loaded hlive
    rw [LinkMap.state?_of_get? hm, Option.some.injEq] at hstate
    simp [Module.isLoaded, hstate]
  have hmodule : linker.moduleOf ⟨linker.id, id⟩ = .ok m := by simp [moduleOf, hm, hloaded]
  refine ⟨.undefinedSymbol m.name symbol, ?_⟩
  rw [Linker.lookup, hmodule]
  rfl

/-- A definition ahead of the modules that were loading is the first one also in the tree that the
module has at the last moment. -/
lemma DefinedAhead.addressIn_eq {scope : Scope} {tree : List ModuleId}
    (h : DefinedAhead after load id (scope ++ load.linker.modules.tree id) symbol)
    (htree : ∀ {front t back}, load.linker.modules.tree id = front ++ t :: back →
      (∀ x ∈ front, load.linker.modules.state? x = some .loading → x = id) →
        ∃ back', tree = front ++ t :: back') (undefined : Cause) :
    after.modules.addressIn (scope ++ tree) symbol undefined
      = after.modules.addressIn (scope ++ load.linker.modules.tree id) symbol undefined := by
  obtain ⟨front, definer, back, hsplit, hdefined, hfront⟩ := h
  -- the definition is in the scope in front of the tree, or in the tree
  rcases List.append_eq_append_iff.mp hsplit with ⟨front', rfl, hin⟩ | ⟨rest, rfl, hin⟩
  · obtain ⟨back', hback⟩ := htree hin fun x hx => hfront x (List.mem_append_right _ hx)
    rw [hback, hin, ← List.append_assoc, ← List.append_assoc]
    exact LinkMap.addressIn_eq_of_definition? hdefined
  · cases rest with
    | nil =>
      have htop : load.linker.modules.tree id = [] ++ definer :: back := hin.symm
      obtain ⟨back', hback⟩ := htree htop (by simp)
      rw [hback, htop]
      exact LinkMap.addressIn_eq_of_definition? hdefined
    | cons x rest =>
      obtain ⟨rfl, -⟩ := List.cons.inj hin
      simp only [List.append_assoc, List.cons_append]
      exact LinkMap.addressIn_eq_of_definition? hdefined

/-- What a moment of a load says of a reference, when it is bound, is seen also afterwards. -/
lemma Sound.boundAt_of_alike (h : linker.Sound history)
    (hload : load ∈ linker.moments files root word)
    (hlast : (linker.moments files root word).getLast? = some last) {frame : Frame}
    {outer : List Frame} (hframes : load.frames = frame :: outer)
    (hremaining : frame.remaining = [])
    (hbinding : load.linker.modules.bindingOf frame.module name symbol = .ok address)
    (halike : last.linker.modules.Alike after.modules) (hafter : after.InOrder []) :
    linker.BoundAt after load frame.module symbol address := by
  have hproper := (h.moment hload).1
  have hlive : (load.linker.modules.get? frame.module).isSome :=
    LinkMap.isSome_of_state? (hproper.inOrder.loading_iff.mpr (by simp [hframes]))
  have hmapping : ∀ t, (load.linker.modules.get? t).isSome →
      after.modules.mapping? t = load.linker.modules.mapping? t := by
    intro t ht
    obtain ⟨m, hm⟩ := Option.isSome_iff_exists.mp ht
    rw [halike.mapping?_eq, LinkMap.mapping?_of_get? hm]
    exact h.inOrder.mapping?_last hload hlast (LinkMap.mapping?_of_get? hm)
  have htreeLive : ∀ t ∈ load.linker.modules.tree frame.module,
      (load.linker.modules.get? t).isSome := fun t ht =>
    hproper.inOrder.consistent.live_of_reaches (LinkMap.mem_tree.mp ht) hlive
  -- whatever is not loading besides the module has all its dependencies
  have hdeps : ∀ t ∈ load.linker.modules.tree frame.module,
      (load.linker.modules.state? t = some .loading → t = frame.module) →
        after.modules.deps t = load.linker.modules.deps t := fun t ht hstate =>
    (halike.deps_eq t).trans (h.inOrder.deps_last hload hlast (htreeLive t ht)
      (hproper.complete hframes hremaining hstate))
  have htree : ∀ {front t back}, load.linker.modules.tree frame.module = front ++ t :: back →
      (∀ x ∈ front, load.linker.modules.state? x = some .loading → x = frame.module) →
        ∃ back', after.modules.tree frame.module = front ++ t :: back' := fun hsplit hfront =>
    LinkMap.walk_eq_append_cons hsplit fun x hx => hdeps x (by simp [hsplit, hx]) (hfront x hx)
  have haddress : ∀ undefined, after.modules.addressIn (linker.modules.globalScope
      ++ load.linker.modules.tree frame.module) symbol undefined = .ok address := by
    intro undefined
    rw [LinkMap.bindingOf_eq, (h.inOrder.since hload).globalScope_eq h.inOrder hproper] at hbinding
    rw [LinkMap.addressIn_congr fun t ht => hmapping t ?_]
    · exact LinkMap.addressIn_eq_ok_of_cause hbinding
    · rcases List.mem_append.mp ht with hglobal | ht
      · have hloaded := h.inOrder.consistent.mem_order_iff.mp (List.mem_of_mem_filter hglobal)
        exact LinkMap.isSome_of_state? ((h.inOrder.since hload).kept.state?_eq hloaded)
      · exact htreeLive t ht
  refine ⟨haddress, fun t ht => ?_, fun hstates => ?_, fun undefined hahead => ?_,
    fun hnil hahead => ?_⟩
  · rw [LinkMap.mem_tree] at ht ⊢
    refine ht.mono fun x y hy => ?_
    rw [halike.deps_eq]
    exact (h.deps_prefix_last hload hlast x).subset hy
  · exact LinkMap.walk_congr fun t ht => hdeps t ht (hstates t ht)
  · rw [hahead.addressIn_eq htree]
    exact haddress undefined
  · have hliveAfter : (after.modules.get? frame.module).isSome := by
      rwa [LinkMap.isSome_congr (hmapping frame.module hlive)]
    obtain ⟨undefined, hlookup⟩ := hafter.lookup_eq hliveAfter symbol
    rw [← List.nil_append (load.linker.modules.tree frame.module)] at hahead
    have hsame := hahead.addressIn_eq htree undefined
    have hbound := haddress undefined
    rw [hnil] at hbound
    rw [hlookup]
    exact hsame.trans hbound

/-- **What a module was bound to is what its scope said when it was relocated.**  Every reference
that a request binds, when it succeeds, is bound to the first definition in the global scope, as
the request has found it, followed by the tree that the module had when it was relocated.  It is
also the first one in the tree that the module has in the end, and what a lookup finds there if
the global scope was empty, unless all definitions stand behind another module that was loading at
that moment. -/
theorem Reached.boundAt (h : linker.Reached history) {handle : Handle}
    (hopen : (linker.openModule files root word).result = .ok handle)
    (hbind : .bind name symbol address ∈ (linker.openModule files root word).events) :
    ∃ load ∈ linker.moments files root word, ∃ frame outer, load.frames = frame :: outer ∧
      frame.remaining = [] ∧ frame.name = name ∧
      (linker.openModule files root word).linker.modules.named? name = some frame.module ∧
      linker.BoundAt (linker.openModule files root word).linker load frame.module symbol
        address := by
  have hafter := (h.sound.openModule files root word).inOrder
  have hopening := linker.opening files root word
  generalize linker.openModule files root word = outcome at hopening hopen hbind hafter ⊢
  cases hopening with
  | refused hmoments => simp at hopen
  | found _ _ hmoments => simp [Linker.issue] at hbind
  | stuck _ hlast _ => simp at hopen
  | @loaded mode last _ _ hlast hframes =>
    have hbind' : .bind name symbol address ∈ last.events := by
      simpa [Linker.issue] using hbind
    obtain ⟨load, hload, frame, outer, hat, hremaining, rfl, hbinding⟩ :=
      h.sound.inOrder.exists_relocation (List.mem_of_getLast? hlast) hbind'
    have halike := last.linker.alike_issue linker.modules.nextId mode
    refine ⟨load, hload, frame, outer, hat, hremaining, rfl, ?_,
      h.sound.boundAt_of_alike hload hlast hat hremaining hbinding halike hafter⟩
    have hframe : frame ∈ load.frames := by simp [hat]
    obtain ⟨mapping, hmapping, hname⟩ := (h.sound.moment hload).1.mapping?_eq hframe
    rw [hafter.consistent.named_iff]
    refine ⟨mapping, ?_, hname⟩
    rw [halike.mapping?_eq]
    exact h.sound.inOrder.mapping?_last hload hlast hmapping

/-- Of two modules that need each other, the inner one is bound to the outer one, although that is
loading and another dependency of it, which comes later, has a definition as well.  The lookup
afterwards finds the same. -/
theorem boundAt_of_cycle :
    ∃ (linker : Linker) (history : History) (files : FileSet) (handle : Handle),
      linker.Reached history ∧ (linker.openModule files ⟨"a"⟩ 2).result = .ok handle ∧
      .bind ⟨"b"⟩ "s" 0x1001 ∈ (linker.openModule files ⟨"a"⟩ 2).events ∧
      (∃ load ∈ linker.moments files ⟨"a"⟩ 2,
        linker.BoundAt (linker.openModule files ⟨"a"⟩ 2).linker load 1 "s" 0x1001) ∧
      (linker.openModule files ⟨"a"⟩ 2).linker.lookup ⟨1, 1⟩ "s" = .ok 0x1001 := by
  let linker : Linker := ⟨1, ⟨0x1000, 0x1000⟩, .empty, []⟩
  let a : Image := ⟨[⟨"b"⟩, ⟨"c"⟩], .ofList [("s", ⟨1, 8, .function⟩)], [], none⟩
  let b : Image := ⟨[⟨"a"⟩], .empty, [.required "s"], none⟩
  let c : Image := ⟨[], .ofList [("s", ⟨2, 8, .function⟩)], [], none⟩
  let files : FileSet := .ofList [(⟨"a"⟩, .readable (.module a)), (⟨"b"⟩, .readable (.module b)),
    (⟨"c"⟩, .readable (.module c))]
  have hreached : linker.Reached .start :=
    Reached.create (show Linker.create 1 ⟨0x1000, 0x1000⟩ [] = .ok linker from rfl)
  have hbind : .bind ⟨"b"⟩ "s" 0x1001 ∈ (linker.openModule files ⟨"a"⟩ 2).events := by
    decide +kernel
  have hok : (linker.openModule files ⟨"a"⟩ 2).result.toOption = some ⟨1, 0⟩ := by decide +kernel
  have hnamed : (linker.openModule files ⟨"a"⟩ 2).linker.modules.named? ⟨"b"⟩ = some 1 := by
    decide +kernel
  have htree : ∀ load ∈ linker.moments files ⟨"a"⟩ 2, ∀ frame ∈ load.frames,
      frame.module = 1 → frame.remaining = [] → load.linker.modules.tree 1 = [1] ++ 0 :: [] := by
    decide +kernel
  have hdefined : ((linker.openModule files ⟨"a"⟩ 2).linker.modules.definition? "s" 0).isSome := by
    decide +kernel
  obtain ⟨load, hload, frame, outer, hframes, hremaining, -, hmodule, hbound⟩ :=
    hreached.boundAt (eq_ok_of_toOption hok) hbind
  rw [hnamed, Option.some.injEq] at hmodule
  rw [← hmodule] at hbound
  have hsplit := htree load hload frame (by simp [hframes]) hmodule.symm hremaining
  have hahead : DefinedAhead (linker.openModule files ⟨"a"⟩ 2).linker load 1
      (load.linker.modules.tree 1) "s" :=
    ⟨[1], 0, [], hsplit, hdefined, fun t ht _ => List.mem_singleton.mp ht⟩
  have hlookup := hbound.lookup_eq rfl hahead
  rw [show (linker.openModule files ⟨"a"⟩ 2).linker.id = 1 by decide +kernel] at hlookup
  exact ⟨linker, .start, files, ⟨1, 0⟩, hreached, eq_ok_of_toOption hok, hbind,
    ⟨load, hload, hbound⟩, hlookup⟩

/-- The tree that a module has in the end may say something else.  Module `b` needs a symbol, and
is relocated while `a` is loading, which needs `b` and is needed by it.  The only definition that
its tree has at that moment is the one of `d`.  But in the end the tree has `c` as well, which `a`
needs too, and `c` comes before `d`. -/
theorem exists_disagreement_with_final_tree :
    ∃ (linker : Linker) (history : History) (files : FileSet),
      linker.Reached history ∧ linker.modules.globalScope = [] ∧
      (linker.openModule files ⟨"a"⟩ 2).result.toBool = true ∧
      .bind ⟨"b"⟩ "s" 0x3002 ∈ (linker.openModule files ⟨"a"⟩ 2).events ∧
      (linker.openModule files ⟨"a"⟩ 2).linker.modules.named? ⟨"b"⟩ = some 1 ∧
      (∀ undefined, (linker.openModule files ⟨"a"⟩ 2).linker.modules.addressIn
        (linker.modules.globalScope ++ (linker.openModule files ⟨"a"⟩ 2).linker.modules.tree 1)
        "s" undefined = .ok 0x4001) ∧
      ((linker.openModule files ⟨"a"⟩ 2).linker.lookup ⟨1, 1⟩ "s").toOption = some 0x4001 := by
  let linker : Linker := ⟨1, ⟨0x1000, 0x1000⟩, .empty, []⟩
  let needing (deps : List Soname) (references : List Reference) : StoredFile :=
    .readable (.module ⟨deps, .empty, references, none⟩)
  let defining (value : UInt64) : StoredFile :=
    .readable (.module ⟨[], .ofList [("s", ⟨value, 8, .function⟩)], [], none⟩)
  let files : FileSet := .ofList [(⟨"a"⟩, needing [⟨"b"⟩, ⟨"c"⟩] []),
    (⟨"b"⟩, needing [⟨"a"⟩, ⟨"d"⟩] [.required "s"]), (⟨"c"⟩, defining 1), (⟨"d"⟩, defining 2)]
  have hreached : linker.Reached .start :=
    Reached.create (show Linker.create 1 ⟨0x1000, 0x1000⟩ [] = .ok linker from rfl)
  refine ⟨linker, .start, files, hreached, rfl, by decide +kernel, by decide +kernel,
    by decide +kernel, fun undefined => ?_, by decide +kernel⟩
  have hlater : (((linker.openModule files ⟨"a"⟩ 2).linker.modules.addressIn
      (linker.modules.globalScope ++ (linker.openModule files ⟨"a"⟩ 2).linker.modules.tree 1)
      "s" (.undefinedSymbol ⟨"b"⟩ "s")).toOption) = some 0x4001 := by decide +kernel
  exact LinkMap.addressIn_eq_ok_of_cause (eq_ok_of_toOption hlater)

end Linker

end DynamicLinker
