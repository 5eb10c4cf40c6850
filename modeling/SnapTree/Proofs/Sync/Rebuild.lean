import SnapTree.Proofs.Exchange.Serving
import SnapTree.Proofs.Sync.FromScratch
import SnapTree.Proofs.Workspace.Identification
import SnapTree.Proofs.Workspace.Publishing

/-
  This file proves that publishing and building from scratch
  are inverse to each other over a store that many solutions
  share.  If it is in a directory, it may compress its objects
  in any way that loses nothing.

  Key definitions include:
    * `Store.link`
    * `Solution.contributed`

  Key theorems include:
    * `Sink.publishAll_holds`
    * `Sink.publishAll_rebuilds`
-/

namespace SnapTree

section Contents

variable [Compression]

/- A link to a store that hashes what the store answers. -/
def Store.link
    (st : Store) : Link where
  source _ request := st.fetch false request

/-
  A store that holds the assets of a solution serves them, if
  checksums tell them apart.
-/
theorem Store.serves
    (hLossless : Compression.IsLossless)
    {st : Store}
    {assets : Set Asset}
    (hFaithful : Faithful assets)
    {held : Set Asset}
    (hMem : ∀ a ∈ held, a ∈ assets ∧ a.IsSealed)
    (hHas : ∀ a ∈ held, st.Has a.checksum a) :
    Source.Serves st.link.source
      {c | ∃ a ∈ held, a.checksum = c}
      {entry |
        entry.2 ∈ held ∧ entry.2.checksum = entry.1} := by
  intro earlier request hRequest
  have hChosen :
      ∃ f : Checksum → Asset, ∀ c ∈ request,
        f c ∈ held ∧ (f c).checksum = c := by
    have hEach :
        ∀ c, ∃ a : Asset,
          c ∈ request → a ∈ held ∧ a.checksum = c := by
      intro c
      by_cases hC : c ∈ request
      · rcases hRequest c hC with ⟨a, hA⟩
        exact ⟨a, fun _ => hA⟩
      · exact ⟨.text default, fun h => absurd h hC⟩
    exact Classical.skolem.1 hEach
  rcases hChosen with ⟨f, hF⟩
  refine ⟨request.map (fun c => (c, f c)), ?_, ?_⟩
  · apply Store.fetch_eq hLossless
    · intro c hC
      have hHeld := hHas (f c) (hF c hC).1
      rw [(hF c hC).2] at hHeld
      exact hHeld
    · intro c hC
      exact hFaithful.short _ (hMem _ (hF c hC).1).1
  · rintro ⟨c, a⟩
    constructor
    · intro hEntry
      rcases List.mem_map.1 hEntry with ⟨b, hB, hSame⟩
      rcases Prod.mk.inj hSame with ⟨rfl, rfl⟩
      exact ⟨hF b hB, hB⟩
    · rintro ⟨⟨hHeld, hChecksum⟩, hC⟩
      refine List.mem_map.2 ⟨c, hC, ?_⟩
      rcases hF c hC with ⟨hChosen, hSame⟩
      rcases hMem _ hHeld with ⟨hA, hSealed⟩
      rcases hMem _ hChosen with ⟨hB, hSealedB⟩
      rw [hFaithful.eq_of_checksum hB hA hSealedB hSealed
        (hSame.trans hChecksum.symm)]

/- A session that has received nothing. -/
structure Session.IsFresh (session : Session) : Prop where
  cache : session.cache = ∅
  pool : session.pool.Reachable

omit [Compression] in
theorem Session.IsFresh.knows
    {session : Session}
    (hFresh : session.IsFresh)
    (assets : Set Asset) :
    session.Knows assets ∅ where
  entry c a hCached := by
    rw [hFresh.cache, Std.ExtTreeMap.getElem?_empty] at hCached
    cases hCached
  known a hA := by
    cases hA
  clean := hFresh.pool.isClean

/-
  From a store that holds its assets, a solution is built as
  far as its projects can be held.
-/
theorem Store.createSolution_eq
    (hLossless : Compression.IsLossless)
    {st : Store}
    {s : Solution}
    {assets : Set Asset}
    (hFaithful : Faithful assets)
    (hS : s.Reachable)
    (hAssets : ∀ a ∈ s.assets, a ∈ assets)
    (hHas : ∀ a ∈ s.assets, st.Has a.checksum a)
    (settings : SyncSettings)
    {session : Session}
    (hFresh : session.IsFresh) :
    let sync : Synchronizer := ⟨st.link, settings⟩
    ((sync.createSolution s.checksum).start session).1 =
      .ok (s.restricted (sync.held s)) := by
  intro sync
  have hMem :
      ∀ a ∈ {a | a ∈ s.assets}, a ∈ assets ∧ a.IsSealed :=
    fun a hA => ⟨hAssets a hA, s.isSealed_of_mem_assets a hA⟩
  let serving : Serving sync.link :=
    { assets
      wanted := {a | a ∈ s.assets}
      held := {a | a ∈ s.assets}
      faithful := hFaithful
      wanted_mem := hMem
      held_mem := hMem
      never := rfl
      serves := Store.serves hLossless hFaithful hMem hHas }
  have hLack :
      ∀ e, serving.supply.lack e →
        (fun _ : SyncError => False) (.ofAsset e) := by
    rintro e ⟨a, hWanted, hNotHeld, -⟩
    exact hNotHeld hWanted
  have hGives :
      serving.supply.Gives ∅ (sync.createSolution s.checksum)
        True (s.restricted (sync.held s)) ∅ (fun _ => False) :=
    serving.supply.gives_createSolution hLack hFaithful hAssets
      (fun a hA => hA) hS.wellFormed
  have hRun := hGives.holds session (hFresh.knows assets)
  revert hRun
  cases (sync.createSolution s.checksum).start session with
  | mk result after =>
      cases result with
      | error e => exact False.elim
      | ok o => exact fun hPost => congrArg Except.ok hPost.1.2

/- What the publication of some solutions may put into a store. -/
def Solution.contributed
    (solutions : List Solution)
    (c : Checksum)
    (a : Asset) : Prop :=
  a.checksum = c ∧ ∃ s ∈ solutions, a ∈ s.assets

/-
  A store that was empty before holds all assets of a solution
  whose publication ended well, whatever else was published.
-/
theorem Sink.publishAll_holds
    {σ : Type}
    (sink : Sink σ)
    {solutions : List Solution}
    {u : σ}
    (hEmpty : (sink.store u).IsEmpty)
    (hFaithful :
      Faithful {a | ∃ s ∈ solutions, a ∈ s.assets})
    {s : Solution}
    {root : Checksum}
    (hPublished :
      (s, .ok root) ∈
        solutions.zip (sink.publishAll solutions u).1) :
    root = s.checksum ∧
      ∀ a ∈ s.assets,
        (sink.store (sink.publishAll solutions u).2).Has
          a.checksum a := by
  have hS : s ∈ solutions := (List.of_mem_zip hPublished).1
  have hAssets :
      ∀ a ∈ s.assets, a ∈ {a | ∃ s ∈ solutions, a ∈ s.assets} :=
    fun a hA => ⟨s, hS, hA⟩
  have hContributed :
      ∀ t ∈ solutions, ∀ entry ∈ t.publication,
        Solution.contributed solutions entry.1 entry.2 := by
    intro t hT entry hEntry
    rcases Solution.mem_of_mem_publication hEntry with
      ⟨hA, hChecksum⟩
    exact ⟨hChecksum, t, hT, hA⟩
  rcases (Sink.publishAll_keeps
    (hEmpty.keeps (P := Solution.contributed solutions))
    hContributed).2 s root hPublished with ⟨rfl, hEntries⟩
  refine ⟨rfl, fun a hA => ?_⟩
  have hEntry : (a.checksum, a) ∈ s.publication :=
    (Solution.mem_publication_iff hFaithful hAssets).2 ⟨hA, rfl⟩
  rcases hEntries _ hEntry with
    ⟨b, ⟨hChecksum, t, hT, hB⟩, hHeld⟩
  have hSame : b = a :=
    hFaithful.eq_of_checksum ⟨t, hT, hB⟩ (hAssets a hA)
      (t.isSealed_of_mem_assets b hB)
      (s.isSealed_of_mem_assets a hA) hChecksum
  rw [hSame] at hHeld
  exact hHeld

/-
  Of all solutions that were published into one store which was
  empty before, each whose publication ended well is built again
  from its root.  Nothing is asked of the others: their
  publication may have stopped at any point.
-/
theorem Sink.publishAll_rebuilds
    (hLossless : Compression.IsLossless)
    {σ : Type}
    (sink : Sink σ)
    {solutions : List Solution}
    {u : σ}
    (hEmpty : (sink.store u).IsEmpty)
    (hReachable : ∀ s ∈ solutions, s.Reachable)
    (hFaithful :
      Faithful {a | ∃ s ∈ solutions, a ∈ s.assets})
    {s : Solution}
    {root : Checksum}
    (hPublished :
      (s, .ok root) ∈
        solutions.zip (sink.publishAll solutions u).1)
    (settings : SyncSettings)
    {session : Session}
    (hFresh : session.IsFresh) :
    let store := sink.store (sink.publishAll solutions u).2
    let sync : Synchronizer := ⟨store.link, settings⟩
    root = s.checksum ∧
      ((sync.createSolution root).start session).1 =
        .ok (s.restricted
          (s.projects.filter
            (fun _ p =>
              settings.supports p.attributes.language))) := by
  intro store sync
  have hS : s ∈ solutions := (List.of_mem_zip hPublished).1
  rcases sink.publishAll_holds hEmpty hFaithful hPublished with
    ⟨rfl, hHas⟩
  exact ⟨rfl, Store.createSolution_eq hLossless hFaithful
    (hReachable s hS) (fun a hA => ⟨s, hS, hA⟩) hHas settings
    hFresh⟩

end Contents

/-
  The disk is full when the second asset of the first version is
  put, and a part of a file is left.  The other version is
  published after that.
-/
theorem Sink.publishAll_rebuilds_small :
    let solutions := [Solution.bare, Solution.small]
    let full : DiskWrite := { fault := some (.write 5 .noSpace) }
    let start : Store × List DiskWrite :=
      (.directory .small DirectoryStore.smallFiles, [{}, full])
    let published := Sink.onDisk.publishAll solutions start
    let store := Sink.onDisk.store published.2
    let sync : Synchronizer := ⟨store.link, {}⟩
    (∃ e, published.1 = [.error e, .ok Solution.small.checksum]) ∧
      ((sync.createSolution Solution.small.checksum).start {}).1 =
        .ok (Solution.small.restricted
          (Solution.small.projects.filter
            (fun _ p =>
              ({} : SyncSettings).supports
                p.attributes.language))) := by
  intro solutions full start published store sync
  have hStore := DirectoryStore.isFresh_small
  have hEmpty : (Sink.onDisk.store start).IsEmpty :=
    Store.isEmpty_directory hStore
  have hSound : ∀ w ∈ [({} : DiskWrite)], w.fault = none := by
    intro w hW
    rw [List.mem_singleton.1 hW]
  have hFew :
      [({} : DiskWrite)].length <
        Solution.bare.publication.length := by
    decide +kernel
  have hFault : full.fault = some (.write 5 .noSpace) := rfl
  have hResults :
      ∃ e,
        published.1 = [.error e, .ok Solution.small.checksum] :=
    Sink.publishAll_of_fault (Store.mirrors_directory hStore)
      hSound hFew hFault [Solution.small]
  have hPublished :
      (Solution.small, .ok Solution.small.checksum) ∈
        solutions.zip published.1 := by
    rcases hResults with ⟨e, hResults⟩
    rw [hResults]
    exact List.mem_cons_of_mem _ List.mem_cons_self
  have hFresh : Session.IsFresh {} :=
    ⟨rfl, .ofMaxRetained _⟩
  exact ⟨hResults,
    (Sink.publishAll_rebuilds Frame.isLossless Sink.onDisk hEmpty
      Solution.reachable_of_mem_versions
      Solution.faithful_versions hPublished {} hFresh).2⟩

end SnapTree
