import SnapTree.Proofs.Exchange.Comparison
import Mathlib.Data.Set.Defs

/-
  This file proves where computations lead that ask a link for
  assets, whatever comes of them: along every relation between
  sessions along which single steps lead.

  Key definitions include:
    * `Run.Leads`
    * `Link.Carries`
    * `Session.Extends`
    * `Source.GivesOnly`
    * `Session.CachesOnly`

  Key theorems include:
    * `Link.Carries.leads_fetchMissing`
    * `Link.Carries.comparison`
    * `Link.carries_cachesOnly`
-/

namespace SnapTree

------------------------------------------------------------
-- Where computations lead
------------------------------------------------------------

/-
  Whatever comes of a computation, the session after it stands
  in a relation to the session before it.
-/
def Run.Leads
    {ε α : Type}
    (rel : Session → Session → Prop)
    (r : Run ε α) : Prop :=
  ∀ s : Session, rel s (r.start s).2

/- What holds before a computation that leads on holds after it. -/
theorem Run.Leads.spec
    {ε α : Type}
    {kept : Session → Prop}
    {r : Run ε α}
    (hLeads : Run.Leads (fun s t => kept s → kept t) r) :
    Run.Spec kept r (fun _ => kept) (fun _ => True) := by
  constructor
  intro s hS
  have hT := hLeads s hS
  revert hT
  cases r.start s with
  | mk result t =>
      cases result with
      | ok a => exact id
      | error e => exact fun _ => trivial

/- A promise is kept in a session to which the computation leads. -/
theorem Run.Leads.post
    {ε α : Type}
    {rel : Session → Session → Prop}
    {r : Run ε α}
    (hLeads : Run.Leads rel r)
    {post : α → Session → Prop}
    {fail : ε → Prop}
    (hSpec : Run.Spec (fun _ => True) r post fail)
    {s : Session} :
    Run.Spec (fun t => t = s) r
      (fun a t => rel s t ∧ post a t) fail := by
  constructor
  rintro t rfl
  have hResult := hSpec.holds t trivial
  have hSession := hLeads t
  revert hResult hSession
  cases r.start t with
  | mk result u =>
      cases result with
      | ok a => exact fun hPost hSession => ⟨hSession, hPost⟩
      | error e => exact fun hFail _ => hFail

/- One step after another, or the first one if it fails. -/
theorem Run.Leads.bind
    {ε α β : Type}
    {rel : Session → Session → Prop}
    {r : Run ε α}
    {f : α → Run ε β}
    (hFirst : Run.Leads rel r)
    (hThen : ∀ a, Run.Leads rel (f a))
    (hTrans : ∀ s t u, rel s t → rel t u → rel s u) :
    Run.Leads rel (r >>= f) := by
  intro s
  have hHead := hFirst s
  rw [Run.start_bind]
  revert hHead
  cases r.start s with
  | mk result t =>
      cases result with
      | ok a =>
          exact fun hHead => hTrans _ _ _ hHead (hThen a t)
      | error e => exact id

/- What leads along it step by step does so as a whole. -/
def Run.leading
    (ε : Type)
    {rel : Session → Session → Prop}
    (hRefl : ∀ s, rel s s)
    (hTrans : ∀ s t u, rel s t → rel t u → rel s u) :
    Run.Congruence ε where
  Alike r _ := Run.Leads rel r
  of_pure _ := hRefl
  of_throw _ := hRefl
  bind hFirst hThen := hFirst.bind hThen hTrans

------------------------------------------------------------
-- Where links lead
------------------------------------------------------------

/-
  A relation that the steps of a link lead along: it may be
  taken in several steps, only cache and pool matter, and what
  a link accepts may be kept.
-/
structure Link.Carries
    (link : Link)
    (rel : Session → Session → Prop) : Prop where
  trans : ∀ {s t u : Session}, rel s t → rel t u → rel s u
  aside :
    ∀ {s t : Session},
      t.cache = s.cache → t.pool = s.pool → rel s t
  keep :
    ∀ {earlier : List Request} {request : Request}
      {found : List (Checksum × Asset)}
      {entry : Checksum × Asset} (s : Session),
      link.source earlier request = .ok found → entry ∈ found →
        (link.verifies = true → entry.2.checksum = entry.1) →
          rel s (s.keep entry.1 entry.2)

namespace Link.Carries

variable
  {link : Link}
  {rel : Session → Session → Prop}
  (hCarries : link.Carries rel)

include hCarries

theorem refl
    (s : Session) :
    rel s s :=
  hCarries.aside rfl rfl

/- What leads along it step by step does so as a whole. -/
def leading
    (ε : Type) : Run.Congruence ε :=
  Run.leading ε hCarries.refl (fun _ _ _ => hCarries.trans)

theorem bind
    {ε α β : Type}
    {r : Run ε α}
    {f : α → Run ε β}
    (hFirst : Run.Leads rel r)
    (hThen : ∀ a, Run.Leads rel (f a)) :
    Run.Leads rel (r >>= f) :=
  hFirst.bind hThen (fun _ _ _ => hCarries.trans)

theorem leads_get :
    Run.Leads rel (MonadState.get : Run AssetError Session) :=
  hCarries.refl

/- A change to anything but cache and pool. -/
theorem leads_aside
    {ε : Type}
    {f : Session → Session}
    (hCache : ∀ s, (f s).cache = s.cache)
    (hPool : ∀ s, (f s).pool = s.pool) :
    Run.Leads rel (modify f : Run ε PUnit) :=
  fun s => hCarries.aside (hCache s) (hPool s)

theorem leads_checkCancelled :
    Run.Leads rel link.checkCancelled := by
  unfold Link.checkCancelled
  apply hCarries.bind hCarries.leads_get
  intro s
  split
  · exact hCarries.refl
  · exact hCarries.refl

theorem leads_accept
    {earlier : List Request}
    {request : Request}
    {found : List (Checksum × Asset)}
    (hSource : link.source earlier request = .ok found)
    {entry : Checksum × Asset}
    (hFound : entry ∈ found) :
    Run.Leads rel (link.accept entry) := by
  unfold Link.accept
  dsimp only
  split
  · exact hCarries.refl
  · next hFits =>
      intro s
      apply hCarries.keep s hSource hFound
      intro hVerifies
      rw [hVerifies, Bool.true_and, bne_iff_ne, not_not] at hFits
      exact hFits

theorem leads_receive
    (earlier : List Request)
    (request : Request) :
    Run.Leads rel (link.receive earlier request) := by
  unfold Link.receive
  cases hSource : link.source earlier request with
  | error e => exact hCarries.refl
  | ok found =>
      rw [Run.ofExcept, pure_bind]
      refine hCarries.bind (hCarries.leads_aside ?_ ?_) ?_
      · exact fun _ => rfl
      · exact fun _ => rfl
      intro _
      have hAccepted :
          (hCarries.leading AssetError).Alike
            (found.forM link.accept) (found.forM link.accept) :=
        (hCarries.leading AssetError).forM
          (fun _ hEntry => hCarries.leads_accept hSource hEntry)
      apply hCarries.bind hAccepted
      intro _
      apply hCarries.bind hCarries.leads_get
      intro t
      split
      · exact hCarries.refl
      · exact hCarries.refl

/- A round trip leads along it, however it ends. -/
theorem leads_fetchMissing
    (request : Request) :
    Run.Leads rel (link.fetchMissing request) := by
  unfold Link.fetchMissing
  apply hCarries.bind hCarries.leads_checkCancelled
  intro _
  apply hCarries.bind hCarries.leads_get
  intro s
  refine hCarries.bind (hCarries.leads_aside ?_ ?_) ?_
  · exact fun _ => rfl
  · exact fun _ => rfl
  intro _
  apply hCarries.bind hCarries.leads_checkCancelled
  intro _
  exact hCarries.leads_receive s.requests request

theorem leads_prefetch
    (cs : List Checksum) :
    Run.Leads rel (link.prefetch cs) := by
  have hAlike :
      (hCarries.leading AssetError).Alike (link.prefetch cs)
        (link.prefetch cs) :=
    (hCarries.leading AssetError).prefetch hCarries.leads_get
      hCarries.leads_fetchMissing cs
  exact hAlike

/- All ways of asking lead along it. -/
def comparison : link.Comparison link :=
  .ofRoundTrips (hCarries.leading AssetError)
    hCarries.leads_get hCarries.leads_fetchMissing
    (fun _ _ =>
      hCarries.leads_aside (fun _ => rfl) (fun _ => rfl))
    hCarries.leads_checkCancelled

end Link.Carries

------------------------------------------------------------
-- Sessions that keep what is cached
------------------------------------------------------------

/- What was cached in one session is cached in the other. -/
def Session.Extends
    (s t : Session) : Prop :=
  ∀ (c : Checksum) (a : Asset),
    s.cache[c]? = some a → t.cache[c]? = some a

namespace Session.Extends

variable {s t : Session}

theorem refl
    (s : Session) :
    s.Extends s :=
  fun _ _ hCached => hCached

/- An asset that is kept replaces no other. -/
theorem keep
    (s : Session)
    (c : Checksum)
    (a : Asset) :
    s.Extends (s.keep c a) := by
  intro d b hCached
  unfold Session.keep
  rw [Std.ExtTreeMap.getElem?_insertIfNew, if_neg]
  · exact hCached
  · rintro ⟨hSame, hNew⟩
    apply hNew
    rw [Std.LawfulEqOrd.eq_of_compare hSame,
      Std.ExtTreeMap.mem_iff_isSome_getElem?, hCached]
    rfl

theorem isCached
    (hExtends : s.Extends t)
    {c : Checksum}
    (hCached : s.isCached c = true) :
    t.isCached c = true := by
  rcases Session.isCached_iff.1 hCached with ⟨a, hA⟩
  exact Session.isCached_of_eq_some (hExtends c a hA)

/- The asset under a checksum that was cached is the same. -/
theorem eq_of_isCached
    (hExtends : s.Extends t)
    {c : Checksum}
    (hCached : s.isCached c = true)
    {a : Asset}
    (hA : t.cache[c]? = some a) :
    s.cache[c]? = some a := by
  rcases Session.isCached_iff.1 hCached with ⟨b, hB⟩
  rw [hB, ← hA, hExtends c b hB]

end Session.Extends

/- What is cached stays, whatever a source answers. -/
theorem Link.carries_extends
    (link : Link) :
    link.Carries Session.Extends where
  trans hFirst hSecond c a hCached :=
    hSecond c a (hFirst c a hCached)
  aside hCache _ c a hCached := by
    rw [hCache]
    exact hCached
  keep s _ _ _ := .keep s _ _

------------------------------------------------------------
-- Where what is cached comes from
------------------------------------------------------------

/- A source that gives nothing but some entries. -/
def Source.GivesOnly
    (source : Source)
    (entries : Set (Checksum × Asset)) : Prop :=
  ∀ (earlier : List Request) (request : Request)
    (found : List (Checksum × Asset)),
    source earlier request = .ok found →
      ∀ entry ∈ found, entry ∈ entries

theorem Source.GivesOnly.mono
    {source : Source}
    {entries more : Set (Checksum × Asset)}
    (hGives : source.GivesOnly entries)
    (hSubset : entries ⊆ more) :
    source.GivesOnly more :=
  fun earlier request found hFound entry hEntry =>
    hSubset (hGives earlier request found hFound entry hEntry)

/- A session that caches nothing but some entries. -/
def Session.CachesOnly
    (entries : Set (Checksum × Asset))
    (s : Session) : Prop :=
  ∀ (c : Checksum) (a : Asset),
    s.cache[c]? = some a → (c, a) ∈ entries

namespace Session.CachesOnly

variable {entries : Set (Checksum × Asset)} {s : Session}

/- At first nothing is cached. -/
theorem of_empty :
    ({} : Session).CachesOnly entries := by
  intro c a hCached
  rw [Std.ExtTreeMap.getElem?_empty] at hCached
  cases hCached

theorem keep
    (hCaches : s.CachesOnly entries)
    {c : Checksum}
    {a : Asset}
    (hEntry : (c, a) ∈ entries) :
    (s.keep c a).CachesOnly entries := by
  intro d b hCached
  rcases Session.eq_or_of_keep hCached with ⟨rfl, rfl⟩ | hOld
  · exact hEntry
  · exact hCaches d b hOld

end Session.CachesOnly

/- What is cached comes from the source, or was there before. -/
theorem Link.carries_cachesOnly
    {link : Link}
    {entries : Set (Checksum × Asset)}
    (hSource : link.source.GivesOnly entries) :
    link.Carries
      (fun s t => s.CachesOnly entries → t.CachesOnly entries)
      where
  trans hFirst hSecond hS := hSecond (hFirst hS)
  aside hCache _ hS := by
    unfold Session.CachesOnly
    rw [hCache]
    exact hS
  keep s hFound hEntry _ hS :=
    hS.keep (hSource _ _ _ hFound _ hEntry)

end SnapTree
