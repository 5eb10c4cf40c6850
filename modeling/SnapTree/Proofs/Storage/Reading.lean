import SnapTree.Proofs.Storage.Components
import SnapTree.Proofs.Storage.FileTree

/-
  This file proves that what is read at a path is also read at
  a shorter spelling of it, one that leaves out dots and empty
  pieces.  A longer spelling can do harm: a piece that says
  nothing still asks for a directory before it, and a path can
  become too long.

  Key theorems include:
    * `Path.toList_sublist`
    * `FileTree.follow_parts`
    * `FileTree.follow_of_parts`
    * `FileTree.read_of_steps_eq`
    * `FileTree.readText_portable`
-/

namespace SnapTree

------------------------------------------------------------
-- Shorter texts
------------------------------------------------------------

/- Fewer texts make up less with the same text between them. -/
theorem intercalate_sublist
    {α : Type}
    {sep : List α}
    {xs ys : List (List α)}
    (hFewer : xs.Sublist ys) :
    (sep.intercalate xs).Sublist (sep.intercalate ys) := by
  induction hFewer with
  | slnil => exact List.Sublist.refl _
  | @cons xs ys y hFewer ih =>
      cases ys with
      | nil =>
          rw [List.sublist_nil.1 hFewer]
          exact List.nil_sublist _
      | cons z zs =>
          rw [List.intercalate_cons_cons]
          exact ih.trans (List.sublist_append_right _ _)
  | @cons_cons xs ys y hFewer ih =>
      cases xs with
      | nil =>
          cases ys with
          | nil => exact List.Sublist.refl _
          | cons z zs =>
              rw [List.intercalate_singleton,
                List.intercalate_cons_cons, List.append_assoc]
              exact List.sublist_append_left _ _
      | cons x xs =>
          cases ys with
          | nil => cases hFewer
          | cons z zs =>
              rw [List.intercalate_cons_cons,
                List.intercalate_cons_cons]
              exact (List.Sublist.refl _).append ih

theorem utf8ByteSize_le_of_sublist
    {xs ys : List Char}
    (hFewer : xs.Sublist ys) :
    (String.ofList xs).utf8ByteSize ≤
      (String.ofList ys).utf8ByteSize := by
  induction hFewer with
  | slnil => exact Nat.le_refl _
  | cons c hFewer ih =>
      rw [utf8ByteSize_ofList_cons]
      omega
  | cons_cons c hFewer ih =>
      rw [utf8ByteSize_ofList_cons, utf8ByteSize_ofList_cons]
      omega

namespace Path

/- Fewer pieces make a path whose text is part of the other's. -/
theorem toList_sublist
    {p q : Path}
    (hFewer : q.pieces.Sublist p.pieces) :
    q.text.toList.Sublist p.text.toList := by
  have hText :
      ∀ r : Path,
        ['/'].intercalate (r.pieces.map String.toList) =
          r.text.toList := by
    intro r
    have hSlash : "/".toList = ['/'] := rfl
    rw [← hSlash, ← String.toList_intercalate,
      intercalate_pieces]
  have hChars :
      (['/'].intercalate (q.pieces.map String.toList)).Sublist
        (['/'].intercalate (p.pieces.map String.toList)) :=
    intercalate_sublist (hFewer.map String.toList)
  rw [hText, hText] at hChars
  exact hChars

end Path

------------------------------------------------------------
-- Following paths
------------------------------------------------------------

namespace FileTree

variable {t : FileTree}

theorem next?_of_idle
    {piece : String}
    (hIdle : Path.isIdle piece = true)
    (l : Location) :
    next? piece l = some l := by
  unfold next?
  rw [if_pos hIdle]

/- Pieces that say nothing may be left out. -/
theorem follow_parts
    {pieces : List String}
    {l l' : Location}
    (hFollow : t.follow pieces l = .ok l') :
    t.follow (pieces.filter (fun piece => !Path.isIdle piece)) l =
      .ok l' := by
  induction pieces generalizing l with
  | nil => exact hFollow
  | cons piece rest ih =>
      rcases exists_next_of_follow hFollow with
        ⟨hNode, next, hNext, hRest⟩
      cases hIdle : Path.isIdle piece with
      | true =>
          rw [next?_of_idle hIdle] at hNext
          rw [List.filter_cons_of_neg (by simp [hIdle]),
            Option.some.inj hNext]
          exact ih hRest
      | false =>
          rw [List.filter_cons_of_pos (by simp [hIdle]),
            follow_cons hNode hNext]
          exact ih hRest

/-
  They may be put in again, but not at the end, where they ask
  for a directory.
-/
theorem follow_of_parts
    {before : List String}
    {last : String}
    {l l' : Location}
    (hLast : Path.isIdle last = false)
    (hFollow :
      t.follow
          ((before ++ [last]).filter
            (fun piece => !Path.isIdle piece)) l =
        .ok l') :
    t.follow (before ++ [last]) l = .ok l' := by
  induction before generalizing l with
  | nil =>
      rw [List.nil_append,
        List.filter_cons_of_pos (by simp [hLast])] at hFollow
      exact hFollow
  | cons piece rest ih =>
      rw [List.cons_append] at hFollow ⊢
      cases hIdle : Path.isIdle piece with
      | true =>
          rw [List.filter_cons_of_neg (by simp [hIdle])]
            at hFollow
          have hNode : t.node? l = some .directory := by
            cases hParts :
                (rest ++ [last]).filter
                  (fun piece => !Path.isIdle piece) with
            | nil =>
                rw [List.filter_append, List.append_eq_nil_iff,
                  List.filter_cons_of_pos (by simp [hLast])]
                  at hParts
                cases hParts.2
            | cons first others =>
                rw [hParts] at hFollow
                exact (exists_next_of_follow hFollow).1
          rw [follow_cons hNode (next?_of_idle hIdle l)]
          exact ih hFollow
      | false =>
          rw [List.filter_cons_of_pos (by simp [hIdle])]
            at hFollow
          rcases exists_next_of_follow hFollow with
            ⟨hNode, next, hNext, hRest⟩
          rw [follow_cons hNode hNext]
          exact ih hRest

/- A path that leads to a file ends in a piece that counts. -/
theorem last_of_follow
    {pieces : List String}
    {l l' : Location}
    {bytes : List UInt8}
    (hSome : pieces ≠ [])
    (hFollow : t.follow pieces l = .ok l')
    (hFile : t.node? l' = some (.file bytes)) :
    ∃ before last, pieces = before ++ [last] ∧
      Path.isIdle last = false := by
  induction pieces generalizing l with
  | nil => exact absurd rfl hSome
  | cons piece rest ih =>
      rcases exists_next_of_follow hFollow with
        ⟨hNode, next, hNext, hRest⟩
      cases rest with
      | nil =>
          refine ⟨[], piece, rfl, ?_⟩
          rw [← Bool.not_eq_true]
          intro hIdle
          rw [next?_of_idle hIdle] at hNext
          rw [← Except.ok.inj hRest, ← Option.some.inj hNext,
            hNode] at hFile
          cases hFile
      | cons next' others =>
          rcases ih (List.cons_ne_nil _ _) hRest with
            ⟨before, last, hRest, hLast⟩
          exact ⟨piece :: before, last,
            congrArg (piece :: ·) hRest, hLast⟩

------------------------------------------------------------
-- Reading
------------------------------------------------------------

theorem last_of_read
    {p : Path}
    {bytes : List UInt8}
    (hRead : t.read p = .ok bytes) :
    ∃ before last, p.pieces = before ++ [last] ∧
      Path.isIdle last = false := by
  rcases read_eq_ok_iff.1 hRead with ⟨l, hLocate, hFile⟩
  rcases locate_eq_ok_iff.1 hLocate with ⟨-, -, -, hFollow⟩
  exact last_of_follow (Path.pieces_ne_nil p) hFollow hFile

/- A path that says nothing behind another one is not read. -/
theorem parts_ne_nil_of_read
    {p q : Path}
    {bytes : List UInt8}
    (hRelative : q.isAbsolute = false)
    (hRead : t.read (p.join q) = .ok bytes) :
    q.parts ≠ [] := by
  rcases last_of_read hRead with ⟨before, last, hPieces, hLast⟩
  rw [Path.pieces_join hRelative] at hPieces
  have hMem : last ∈ q.pieces := by
    have hEnd := congrArg List.getLast? hPieces
    rw [List.getLast?_append, List.getLast?_concat,
      List.getLast?_eq_some_getLast (Path.pieces_ne_nil q)]
      at hEnd
    rw [← Option.some.inj hEnd]
    exact List.getLast_mem (Path.pieces_ne_nil q)
  apply List.ne_nil_of_mem
  exact List.mem_filter.2 ⟨hMem, by rw [hLast]; rfl⟩

/- What is left of pieces with all that count ends as they do. -/
theorem last_of_sublist
    {before shorter : List String}
    {last : String}
    (hLast : Path.isIdle last = false)
    (hFewer : shorter.Sublist (before ++ [last]))
    (hSame :
      shorter.filter (fun piece => !Path.isIdle piece) =
        (before ++ [last]).filter
          (fun piece => !Path.isIdle piece)) :
    ∃ before', shorter = before' ++ [last] := by
  rcases List.sublist_append_iff.1 hFewer with
    ⟨front, back, rfl, hFront, hBack⟩
  cases hBack with
  | cons _ hNone =>
      have hLengths := congrArg List.length hSame
      have hParts :=
        (hFront.filter
          (fun piece => !Path.isIdle piece)).length_le
      rw [List.sublist_nil.1 hNone, List.append_nil,
        List.filter_append before,
        List.filter_cons_of_pos (by simp [hLast]),
        List.length_append, List.filter_nil,
        List.length_singleton] at hLengths
      omega
  | cons_cons _ hNone =>
      rw [List.sublist_nil.1 hNone]
      exact ⟨front, rfl⟩

/-
  What is read at a path is read at any other that takes the
  same steps and is written with fewer pieces.
-/
theorem read_of_steps_eq
    {p q : Path}
    {bytes : List UInt8}
    (hRead : t.read p = .ok bytes)
    (hSteps : q.steps = p.steps)
    (hFewer : q.pieces.Sublist p.pieces) :
    t.read q = .ok bytes := by
  rcases last_of_read hRead with
    ⟨before, last, hPieces, hLast⟩
  rcases read_eq_ok_iff.1 hRead with ⟨l, hLocate, hFile⟩
  rcases locate_eq_ok_iff.1 hLocate with
    ⟨hNull, -, hSize, hFollow⟩
  have hParts : q.parts = p.parts :=
    Path.parts_eq_of_steps_eq hSteps
  have hShorter := Path.toList_sublist hFewer
  have hEnd : ∃ before', q.pieces = before' ++ [last] := by
    unfold Path.parts at hParts
    rw [hPieces] at hFewer hParts
    exact last_of_sublist hLast hFewer hParts
  rcases hEnd with ⟨before', hEnd⟩
  have hStart := follow_parts hFollow
  apply read_eq_ok_iff.2
  refine ⟨l, locate_eq_ok_iff.2 ⟨?_, ?_, ?_, ?_⟩, hFile⟩
  · exact fun hMem => hNull (hShorter.subset hMem)
  · intro hText
    have hNone : q.pieces = [""] := by
      unfold Path.pieces
      rw [hText]
      rfl
    rw [hNone] at hEnd
    have hMem : last ∈ [""] := by
      rw [hEnd]
      exact List.mem_append_right before' List.mem_cons_self
    rw [List.mem_singleton.1 hMem] at hLast
    revert hLast
    decide
  · have hSizes := utf8ByteSize_le_of_sublist hShorter
    rw [String.ofList_toList, String.ofList_toList] at hSizes
    exact Nat.le_trans hSizes hSize
  · rw [Path.isAbsolute_eq_of_steps_eq hSteps, hEnd]
    apply follow_of_parts hLast
    rw [← hEnd]
    unfold Path.parts at hParts
    rw [hParts]
    exact hStart

theorem readText_eq_ok_iff
    {p : Path}
    {text : String} :
    t.readText p = .ok text ↔
      ∃ bytes, t.read p = .ok bytes ∧
        String.fromUTF8? ⟨bytes.toArray⟩ = some text := by
  unfold readText
  cases t.read p with
  | error e => exact ⟨nofun, fun ⟨_, h, _⟩ => nomatch h⟩
  | ok bytes =>
      dsimp only
      cases hText : String.fromUTF8? ⟨bytes.toArray⟩ with
      | none =>
          refine ⟨nofun, ?_⟩
          rintro ⟨bytes', hSame, hSome⟩
          rw [← Except.ok.inj hSame, hText] at hSome
          cases hSome
      | some text' =>
          constructor
          · intro hOk
            exact ⟨bytes, rfl,
              by rw [hText, Except.ok.inj hOk]⟩
          · rintro ⟨bytes', hSame, hSome⟩
            rw [← Except.ok.inj hSame, hText] at hSome
            rw [Option.some.inj hSome]

/-
  Behind the same path, the text of an inner path is also that
  of its portable form.
-/
theorem readText_portable
    {root source : Path}
    {text : String}
    (hInner : source.IsInner)
    (hRead : t.readText (root.join source) = .ok text) :
    t.readText (root.join ⟨source.portable⟩) = .ok text := by
  rcases readText_eq_ok_iff.1 hRead with ⟨bytes, hBytes, hText⟩
  have hRecorded := Path.isAbsolute_portable source
  have hSteps :
      (root.join ⟨source.portable⟩).steps =
        (root.join source).steps := by
    rw [Path.steps_join hRecorded,
      Path.steps_join hInner.relative,
      Path.steps_portable_iff.2 hInner]
  have hSome : source.names ≠ [] := by
    rw [hInner.names_eq_parts]
    exact parts_ne_nil_of_read hInner.relative hBytes
  have hFewer :
      (root.join ⟨source.portable⟩).pieces.Sublist
        (root.join source).pieces := by
    rw [Path.pieces_join hRecorded,
      Path.pieces_join hInner.relative,
      Path.pieces_portable hSome, hInner.names_eq_parts]
    exact (List.Sublist.refl _).append List.filter_sublist
  exact readText_eq_ok_iff.2
    ⟨bytes, read_of_steps_eq hBytes hSteps hFewer, hText⟩

end FileTree

end SnapTree
