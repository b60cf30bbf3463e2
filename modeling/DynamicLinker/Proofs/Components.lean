/-
# The order in which modules are loaded

A load appends to the global list in blocks, one for each module that is settled and does not
have to wait.  The block of a module is the module itself and the waiting modules that it
reaches.  These reach it in turn, since a waiting module is anchored at a frame, and no outer
frame is within reach.  So a block is one strongly connected component, although none is ever
computed, and whatever it depends on was loaded before.

A module that is loaded keeps its dependencies from then on, so this is also what the global
list looks like when the request that started the load is done.
-/
import DynamicLinker.Proofs.Progress

namespace DynamicLinker

/-- A part of the global list that is one strongly connected component, and where it stands. -/
structure LinkMap.IsBlock (lm : LinkMap) (preceding block : List ModuleId)
    (relocated : List Soname) : Prop where
  /-- The block has a module. -/
  ne_nil : block ≠ []
  /-- The block has modules only. -/
  live {a : ModuleId} : a ∈ block → (lm.get? a).isSome
  /-- The block has exactly the modules that reach each other. -/
  mem_iff {a b : ModuleId} : a ∈ block → (b ∈ block ↔ lm.Reaches a b ∧ lm.Reaches b a)
  /-- What a module of the block needs is in the block or stands before it. -/
  preceded {a b : ModuleId} : a ∈ block → lm.Reaches a b → b ∉ block → b ∈ preceding
  /-- The modules of the block are in the order in which they were relocated. -/
  names_sublist : (lm.namesOf block).Sublist relocated

namespace LinkMap.IsBlock

variable {lm lm' : LinkMap} {preceding block : List ModuleId} {relocated relocated' : List Soname}

/-- A block stays one as long as all that it needs stays as it is. -/
lemma transport (h : lm.IsBlock preceding block relocated)
    (hdeps : ∀ a ∈ block, ∀ b, lm.Reaches a b → lm'.deps b = lm.deps b)
    (hmapping : ∀ a ∈ block, lm'.mapping? a = lm.mapping? a)
    (hrelocated : relocated.Sublist relocated') : lm'.IsBlock preceding block relocated' := by
  have hreaches : ∀ {a b}, a ∈ block → (lm'.Reaches a b ↔ lm.Reaches a b) := fun ha =>
    reaches_iff_of_deps_eq (hdeps _ ha)
  refine ⟨h.ne_nil, ?_, ?_, ?_, ?_⟩
  · intro a ha
    rw [isSome_congr (hmapping a ha)]
    exact h.live ha
  · intro a b ha
    rw [hreaches ha]
    constructor
    · intro hb
      rw [hreaches hb]
      exact (h.mem_iff ha).mp hb
    · rintro ⟨hab, hba⟩
      -- the way back starts at a module that is reached, so it is an old one, too
      have hback : lm'.Reaches b a ↔ lm.Reaches b a :=
        reaches_iff_of_deps_eq fun x hbx => hdeps a ha x (hab.trans hbx)
      exact (h.mem_iff ha).mpr ⟨hab, hback.mp hba⟩
  · intro a b ha hab hb
    exact h.preceded ha ((hreaches ha).mp hab) hb
  · rw [namesOf_congr hmapping]
    exact h.names_sublist.trans hrelocated

/-- A block of loaded modules stays one as long as the loaded modules stay as they are. -/
lemma transport_loaded {linker : Linker} {loading : List ModuleId}
    (hlinker : linker.InOrder loading)
    (h : linker.modules.IsBlock preceding block relocated)
    (hblock : ∀ a ∈ block, a ∈ linker.modules.order)
    (hkept : ∀ a, linker.modules.state? a = some .loaded →
      lm'.deps a = linker.modules.deps a ∧ lm'.mapping? a = linker.modules.mapping? a)
    (hrelocated : relocated.Sublist relocated') : lm'.IsBlock preceding block relocated' := by
  have hloaded : ∀ a ∈ block, linker.modules.state? a = some .loaded := fun a ha =>
    hlinker.consistent.mem_order_iff.mp (hblock a ha)
  refine h.transport (fun a ha b hab => ?_) (fun a ha => ?_) hrelocated
  · exact (hkept b (hlinker.loaded_of_reaches hab (hloaded a ha))).1
  · exact (hkept a (hloaded a ha)).2

end LinkMap.IsBlock

namespace Load

variable {files : FileSet} {linker : Linker} {load next : Load}

/-! ## One step -/

/-- A step that relocates a module and publishes it appends one block. -/
lemma Proper.isBlock_ready (h : load.Proper) (hsince : load.Since linker) {frame : Frame}
    {outer : List Frame} {events : List Event} (hframes : load.frames = frame :: outer)
    (hready : ∀ g ∈ outer.map Frame.module, ¬ load.linker.modules.Reaches frame.module g)
    (hevents : load.linker.modules.relocate frame.module frame.name frame.references
      = (events, .ok ())) :
    (load.linker.settle frame.module).modules.IsBlock load.linker.modules.order
      (load.linker.ready frame.module) (relocations (load.events ++ events)) := by
  have hmem : frame ∈ load.frames := by simp [hframes]
  have horder := h.inOrder
  rw [hframes] at horder
  have hreaches : ∀ x y, (load.linker.settle frame.module).modules.Reaches x y ↔
      load.linker.modules.Reaches x y := fun x y =>
    LinkMap.reaches_congr (load.linker.deps_settle frame.module)
  have hto : ∀ {p}, p ∈ load.linker.ready frame.module →
      load.linker.modules.Reaches frame.module p := fun hp => (Linker.mem_ready.mp hp).2
  have hfrom : ∀ {p}, p ∈ load.linker.ready frame.module →
      load.linker.modules.Reaches p frame.module := fun hp =>
    h.reaches_of_mem_ready hframes hready hp
  refine ⟨?_, ?_, ?_, ?_, ?_⟩
  · have hself : frame.module ∈ load.linker.ready frame.module :=
      Linker.mem_ready.mpr ⟨Or.inr rfl, LinkMap.Reaches.refl _ _⟩
    exact List.ne_nil_of_mem hself
  · intro a ha
    rw [LinkMap.isSome_congr (load.linker.mapping?_settle frame.module a)]
    exact horder.consistent.live_of_reaches (hto ha) horder.live_head
  · intro a b ha
    rw [hreaches, hreaches]
    constructor
    · exact fun hb => ⟨(hfrom ha).trans (hto hb), (hfrom hb).trans (hto ha)⟩
    · rintro ⟨hab, hba⟩
      -- a loaded module would not reach the one that is loading
      refine (horder.mem_ready_or_loaded hready ((hto ha).trans hab)).resolve_right
        fun hloaded => ?_
      have hhead := horder.loaded_of_reaches (hba.trans (hfrom ha)) hloaded
      rw [horder.state?_head] at hhead
      simp at hhead
  · intro a b ha hab hb
    rw [hreaches] at hab
    rw [horder.consistent.mem_order_iff]
    exact (horder.mem_ready_or_loaded hready ((hto ha).trans hab)).resolve_left hb
  · rw [relocations_append, relocations_relocate hevents,
      LinkMap.namesOf_congr fun p _ => load.linker.mapping?_settle frame.module p]
    have hsublist : (load.linker.ready frame.module).Sublist
        (load.linker.waiting ++ [frame.module]) := List.filter_sublist
    exact (hsublist.filterMap _).trans (hsince.namesOf_waiting_concat h hmem)

/-- A step leaves the global list alone or appends one block to it. -/
lemma Advance.order_eq (hadvance : Advance files load next) (h : load.Proper)
    (hsince : load.Since linker) :
    next.linker.modules.order = load.linker.modules.order ∨
      ∃ block, next.linker.modules.order = load.linker.modules.order ++ block ∧
        next.linker.modules.IsBlock load.linker.modules.order block
          (relocations next.events) := by
  cases hadvance with
  | fetch hfree hhead hfetch =>
    obtain ⟨image, -, rfl⟩ := fetch_eq_ok hfetch
    exact Or.inl rfl
  | link hframes hremaining hfound => exact Or.inl LinkMap.order_addDep
  | @relocate frame outer events hframes hremaining hevents =>
    have horder := h.inOrder
    rw [hframes] at horder
    by_cases hawaits : ∃ x ∈ outer.map Frame.module, load.linker.modules.Reaches frame.module x
    · left
      rw [horder.settle_eq_of_reaches hawaits]
      rfl
    · right
      have hnone : ∀ x ∈ outer.map Frame.module,
          ¬ load.linker.modules.Reaches frame.module x := fun x hx hfx => hawaits ⟨x, hx, hfx⟩
      refine ⟨_, horder.order_settle_of_not_reaches hnone, ?_⟩
      exact h.isBlock_ready hsince hframes hnone hevents

/-! ## All steps -/

/-- What was appended to the global list between moments: a block for each step that did append
to it. -/
def blocks : List Load → List (List ModuleId)
  | load :: next :: later =>
    let new := next.linker.modules.order.drop load.linker.modules.order.length
    if new = [] then blocks (next :: later) else new :: blocks (next :: later)
  | _ => []

/-- The global list goes from the first moment to the last by the blocks between them, and each
block comes from one step. -/
lemma order_blocks {moments : List Load} {first last : Load}
    (hchain : moments.IsChain fun a b =>
      a.linker.modules.order <+: b.linker.modules.order)
    (hfirst : moments.head? = some first) (hlast : moments.getLast? = some last) :
    last.linker.modules.order = first.linker.modules.order ++ (blocks moments).flatten ∧
      ∀ earlier block later, blocks moments = earlier ++ block :: later →
        block ≠ [] ∧ ∃ before after skipped rest,
          moments = skipped ++ before :: after :: rest ∧
          before.linker.modules.order = first.linker.modules.order ++ earlier.flatten ∧
          after.linker.modules.order = before.linker.modules.order ++ block := by
  induction moments generalizing first with
  | nil => simp at hfirst
  | cons load moments ih =>
    obtain rfl : load = first := by simpa using hfirst
    cases moments with
    | nil =>
      obtain rfl : load = last := by simpa using hlast
      simp [blocks]
    | cons next moments =>
      rw [List.isChain_cons_cons] at hchain
      obtain ⟨⟨new, hnew⟩, hchain⟩ := hchain
      rw [List.getLast?_cons_cons] at hlast
      obtain ⟨horder, hblocks⟩ := ih hchain rfl hlast
      have hdrop : next.linker.modules.order.drop load.linker.modules.order.length = new := by
        rw [← hnew, List.drop_left]
      rw [blocks]
      simp only [hdrop]
      split
      · -- the first step has appended nothing, so all blocks are those of the others
        rename_i hnil
        rw [hnil, List.append_nil] at hnew
        rw [hnew]
        refine ⟨horder, fun earlier block later hsplit => ?_⟩
        obtain ⟨hne, before, after, skipped, rest, hmoments, hbefore, hafter⟩ :=
          hblocks earlier block later hsplit
        exact ⟨hne, before, after, load :: skipped, rest, by simp [hmoments], hbefore, hafter⟩
      · rename_i hne
        refine ⟨by rw [horder, ← hnew, List.flatten_cons, List.append_assoc], ?_⟩
        intro earlier block later hsplit
        cases earlier with
        | nil =>
          -- the first block is what the first step has appended
          obtain ⟨rfl, -⟩ := List.cons.inj hsplit
          exact ⟨hne, load, next, [], moments, rfl, by simp, hnew.symm⟩
        | cons block' earlier =>
          obtain ⟨rfl, htail⟩ := List.cons.inj hsplit
          obtain ⟨hne', before, after, skipped, rest, hmoments, hbefore, hafter⟩ :=
            hblocks earlier block later htail
          refine ⟨hne', before, after, load :: skipped, rest, by simp [hmoments], ?_, hafter⟩
          rw [hbefore, ← hnew, List.flatten_cons, List.append_assoc]

end Load

/-! ## Requests -/

namespace Linker

/-- What is appended to the global list are blocks, one behind the other. -/
structure AppendsBlocks (linker : Linker) (blocks : List (List ModuleId))
    (relocated : List Soname) (after : Linker) : Prop where
  /-- The global list is that from before, and the blocks behind it. -/
  order_eq : after.modules.order = linker.modules.order ++ blocks.flatten
  /-- Each block is one, behind all that stands before it. -/
  isBlock {earlier later : List (List ModuleId)} {block : List ModuleId} :
    blocks = earlier ++ block :: later →
      after.modules.IsBlock (linker.modules.order ++ earlier.flatten) block relocated
  /-- Each module was relocated once, so the order of relocation is one of modules. -/
  relocated_nodup : relocated.Nodup

variable {linker after after' : Linker} {history : History} {files : FileSet} {name : Soname}
  {word : Int32} {last : Load}

lemma AppendsBlocks.transport {blocks : List (List ModuleId)} {relocated : List Soname}
    {loading : List ModuleId} (h : linker.AppendsBlocks blocks relocated after)
    (hafter : after.InOrder loading) (horder : after'.modules.order = after.modules.order)
    (hkept : ∀ a, after.modules.state? a = some .loaded →
      after'.modules.deps a = after.modules.deps a ∧
        after'.modules.mapping? a = after.modules.mapping? a) :
    linker.AppendsBlocks blocks relocated after' := by
  refine ⟨horder.trans h.order_eq, fun {earlier later block} hsplit => ?_, h.relocated_nodup⟩
  refine (h.isBlock hsplit).transport_loaded hafter (fun a ha => ?_) hkept (List.Sublist.refl _)
  rw [h.order_eq, hsplit]
  simp [ha]

/-- A load appends a block for each module that is published when it is settled. -/
lemma Sound.appendsBlocks_last (h : linker.Sound history)
    (hlast : (linker.moments files name word).getLast? = some last) :
    linker.AppendsBlocks (Load.blocks (linker.moments files name word))
      (relocations last.events) last.linker := by
  have hchain : (linker.moments files name word).IsChain (Load.Advance files) :=
    isChain_moments h.inOrder
  have hmoment : ∀ load ∈ linker.moments files name word, load.Proper := fun load hload =>
    (h.moment hload).1
  have hgrows : (linker.moments files name word).IsChain fun a b =>
      a.linker.modules.order <+: b.linker.modules.order :=
    hchain.imp_of_mem_imp fun a b ha _ hab => ((hmoment a ha).extends_advance hab).order_grows
  have hne : linker.moments files name word ≠ [] := by
    rintro hnil
    simp [hnil] at hlast
  have hfirst : (linker.moments files name word).head? = some (Load.start linker) := by
    rw [← head?_moments (List.head?_eq_some_head hne)]
    exact List.head?_eq_some_head hne
  obtain ⟨horder, hblocks⟩ := Load.order_blocks hgrows hfirst hlast
  refine ⟨horder, fun {earlier later block} hsplit => ?_,
    (h.inOrder.since (List.mem_of_getLast? hlast)).relocations_nodup⟩
  obtain ⟨hblock, before, next, skipped, rest, hmoments, hbefore, hnext⟩ :=
    hblocks earlier block later hsplit
  have hmem : before ∈ linker.moments files name word := by simp [hmoments]
  have hmem' : next ∈ linker.moments files name word := by simp [hmoments]
  have hadvance : Load.Advance files before next := by
    rw [hmoments] at hchain
    exact (List.isChain_append_cons_cons.mp hchain).2.1
  rcases hadvance.order_eq (hmoment before hmem) (h.inOrder.since hmem) with hsame | hnew
  · rw [hsame, List.self_eq_append_right] at hnext
    exact absurd hnext hblock
  · obtain ⟨block', horder', hisBlock⟩ := hnew
    rw [hnext, List.append_cancel_left_eq] at horder'
    subst horder'
    rw [hbefore] at hisBlock
    have hextends := extends_last h.inOrder hmem' hlast
    refine hisBlock.transport_loaded (hmoment next hmem').inOrder (fun a ha => ?_)
      (fun a ha => ⟨LinkMap.deps_congr (hextends.get?_eq ha), hextends.mapping?_eq ha⟩) ?_
    · rw [hnext]
      exact List.mem_append_right _ ha
    · have hgrown : next.events <+: last.events :=
        rel_last (R := fun a b => a.events <+: b.events) h.inOrder
          (fun _ => List.prefix_refl _) (fun _ _ _ => List.IsPrefix.trans)
          (fun _ _ _ hab => hab.events_grow) hmem' hlast
      exact hgrown.sublist.filterMap _

/-- Issuing a handle in a local mode leaves the global list alone. -/
lemma order_issue (linker : Linker) (id : ModuleId) {mode : Mode} (hlocal : mode.global = false) :
    (linker.issue id mode).linker.modules.order = linker.modules.order := by
  have hmodules : (linker.issue id mode).linker.modules = linker.modules.initializeTree id := by
    simp [issue, hlocal, withModules]
  have hfold : ∀ (ids : List ModuleId) (lm : LinkMap),
      (ids.foldl LinkMap.markInitialized lm).order = lm.order := by
    intro ids
    induction ids with
    | nil => exact fun _ => rfl
    | cons id ids ih => exact fun lm => ih _
  rw [hmodules]
  exact hfold _ _

/-- **The load phase appends strongly connected components in the order of dependency.**  A
request that does not ask for the global scope, whether it succeeds or fails, leaves the global
list as it was and behind it one block for each module that was published when it was settled.
Each block is one strongly connected component of the loaded modules, stands behind all that
it needs, and has its modules in the order of their relocation. -/
theorem Reached.appendsBlocks (h : linker.Reached history) (files : FileSet) (name : Soname)
    (word : Int32) (hlocal : ∀ mode, Mode.ofRaw word = .ok mode → mode.global = false) :
    linker.AppendsBlocks (Load.blocks (linker.moments files name word))
      (relocations (linker.progress files name word))
      (linker.openModule files name word).linker := by
  have hnothing : ∀ after : Linker, after.modules.order = linker.modules.order →
      linker.AppendsBlocks (Load.blocks []) (relocations []) after := by
    intro after horder
    refine ⟨by simp [horder, Load.blocks], fun {earlier later block} hsplit => ?_, List.nodup_nil⟩
    simp [Load.blocks] at hsplit
  have hopening := linker.opening files name word
  generalize linker.openModule files name word = outcome at hopening ⊢
  cases hopening with
  | refused hmoments =>
    rw [progress_of_nil hmoments, hmoments]
    exact hnothing _ rfl
  | found hmode _ hmoments =>
    rw [progress_of_nil hmoments, hmoments]
    exact hnothing _ (linker.order_issue _ (hlocal _ hmode))
  | @stuck e last stuck hstarts hlast hstuck =>
    have hproper := (h.sound.moment (List.mem_of_getLast? hlast)).1
    rw [progress_of_last hlast]
    refine (h.sound.appendsBlocks_last hlast).transport hproper.inOrder last.order_unwind
      fun a ha => ⟨LinkMap.deps_congr ?_, hproper.extends_unwind.mapping?_eq ha⟩
    exact hproper.extends_unwind.get?_eq ha
  | @loaded mode last hmode hstarts hlast hframes =>
    have hproper := (h.sound.moment (List.mem_of_getLast? hlast)).1
    rw [progress_of_last hlast]
    have halike := last.linker.alike_issue linker.modules.nextId mode
    exact (h.sound.appendsBlocks_last hlast).transport hproper.inOrder
      (last.linker.order_issue _ (hlocal mode hmode))
      fun a _ => ⟨halike.deps_eq a, halike.mapping?_eq a⟩

/-- A module needs one that needs it in turn, and one that needs nothing.  The latter makes up
the first block, although it is the last of the three to be mapped, and the other two make up
the second, in the order of their relocation. -/
theorem appendsBlocks_of_cycle :
    ∃ (linker : Linker) (files : FileSet),
      linker.AppendsBlocks [[2], [1, 0]] [⟨"b"⟩, ⟨"c"⟩, ⟨"a"⟩]
        (linker.openModule files ⟨"a"⟩ 2).linker := by
  let linker : Linker := ⟨1, ⟨0x1000, 0x1000⟩, .empty, []⟩
  let files : FileSet :=
    .ofDeps [(⟨"a"⟩, [⟨"b"⟩, ⟨"c"⟩]), (⟨"b"⟩, [⟨"a"⟩]), (⟨"c"⟩, [])]
  have hcreate : Linker.create 1 ⟨0x1000, 0x1000⟩ [] = .ok linker := rfl
  have hmode : Mode.ofRaw 2 = .ok ⟨.now, false, false, false⟩ := rfl
  have hblocks : Load.blocks (linker.moments files ⟨"a"⟩ 2) = [[2], [1, 0]] := by decide +kernel
  have hrelocated : relocations (linker.progress files ⟨"a"⟩ 2) = [⟨"b"⟩, ⟨"c"⟩, ⟨"a"⟩] := by
    decide +kernel
  refine ⟨linker, files, ?_⟩
  rw [← hblocks, ← hrelocated]
  refine (Reached.create hcreate).appendsBlocks files ⟨"a"⟩ 2 fun mode hok => ?_
  rw [hmode, Except.ok.injEq] at hok
  rw [← hok]

end Linker

end DynamicLinker
