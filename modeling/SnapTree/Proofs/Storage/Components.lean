import SnapTree.Proofs.Storage.Paths

/-
  This file proves how paths are put together and what is left
  of them when only their names are kept.  Dots and repeated
  slashes do not count, so paths are compared by their steps.
  Behind a directory, a path takes its own steps after those
  of the directory.  A path that is inner, which means that it
  neither starts at the root nor leads upward, takes the same
  steps as its portable form does, and no other path does.

  Key definitions include:
    * `Path.parts`
    * `Path.steps`
    * `Path.IsInner`

  Key theorems include:
    * `Path.steps_eq`
    * `Path.pieces_join`
    * `Path.join_assoc`
    * `Path.steps_join`
    * `Path.steps_portable_iff`
    * `Path.steps_join_portable_iff`
    * `Path.names_eq_of_portable_eq`
-/

namespace SnapTree

namespace Path

------------------------------------------------------------
-- Pieces
------------------------------------------------------------

theorem slash_notMem_of_mem_splitSlashes
    {text piece : List Char}
    (hMem : piece ∈ splitSlashes text) :
    '/' ∉ piece := by
  induction text generalizing piece with
  | nil =>
      rw [splitSlashes, List.mem_singleton] at hMem
      rw [hMem]
      exact List.not_mem_nil
  | cons c rest ih =>
      unfold splitSlashes at hMem
      by_cases hSlash : c = '/'
      · rw [if_pos hSlash, List.mem_cons] at hMem
        rcases hMem with hFirst | hMem
        · rw [hFirst]
          exact List.not_mem_nil
        · exact ih hMem
      · rw [if_neg hSlash] at hMem
        cases hRest : splitSlashes rest with
        | nil => exact absurd hRest (splitSlashes_ne_nil rest)
        | cons first others =>
            rw [hRest] at hMem ih
            rcases List.mem_cons.1 hMem with hFirst | hMem
            · rw [hFirst, List.mem_cons, not_or]
              exact ⟨fun hSame => hSlash hSame.symm,
                ih List.mem_cons_self⟩
            · exact ih (List.mem_cons_of_mem first hMem)

/- The last piece is empty where nothing or a slash is last. -/
theorem getLast?_splitSlashes
    {text : List Char}
    (hLast : (splitSlashes text).getLast? = some []) :
    text = [] ∨ text.getLast? = some '/' := by
  induction text with
  | nil => exact Or.inl rfl
  | cons c rest ih =>
      right
      unfold splitSlashes at hLast
      by_cases hSlash : c = '/'
      · rw [if_pos hSlash, List.getLast?_cons_of_ne_nil
          (splitSlashes_ne_nil rest)] at hLast
        rcases ih hLast with hNil | hEnd
        · rw [hNil, hSlash]
          rfl
        · rw [List.getLast?_cons, hEnd]
          rfl
      · rw [if_neg hSlash] at hLast
        cases hRest : splitSlashes rest with
        | nil => exact absurd hRest (splitSlashes_ne_nil rest)
        | cons piece pieces =>
            rw [hRest] at hLast ih
            cases pieces with
            | nil => simp at hLast
            | cons next others =>
                rw [List.getLast?_cons_cons] at hLast ih
                rcases ih hLast with hNil | hEnd
                · rw [hNil] at hRest
                  simp [splitSlashes] at hRest
                · rw [List.getLast?_cons, hEnd]
                  rfl

/- Pieces without slashes are the pieces of what they make up. -/
theorem splitSlashes_intercalate
    {pieces : List (List Char)}
    (hSome : pieces ≠ [])
    (hSlash : ∀ piece ∈ pieces, '/' ∉ piece) :
    splitSlashes (['/'].intercalate pieces) = pieces := by
  induction pieces with
  | nil => exact absurd rfl hSome
  | cons piece others ih =>
      have hFirst : splitSlashes piece = [piece] :=
        splitSlashes_of_notMem (hSlash piece List.mem_cons_self)
      cases others with
      | nil => rw [List.intercalate_singleton, hFirst]
      | cons next others =>
          rw [List.intercalate_cons_of_ne_nil
              (List.cons_ne_nil _ _), List.append_assoc,
            List.singleton_append, splitSlashes_append, hFirst,
            ih (List.cons_ne_nil _ _)
              (fun other hOther =>
                hSlash other (List.mem_cons_of_mem _ hOther))]
          rfl

theorem slash_notMem_of_mem_pieces
    {p : Path}
    {piece : String}
    (hMem : piece ∈ p.pieces) :
    '/' ∉ piece.toList := by
  rcases List.mem_map.1 hMem with ⟨chars, hChars, rfl⟩
  rw [String.toList_ofList]
  exact slash_notMem_of_mem_splitSlashes hChars

/- A path is known from its pieces. -/
theorem eq_of_pieces_eq
    {p q : Path}
    (hSame : p.pieces = q.pieces) :
    p = q := by
  cases p with
  | mk text =>
      cases q with
      | mk other =>
          have hText := intercalate_pieces ⟨text⟩
          rw [hSame, intercalate_pieces] at hText
          exact congrArg Path.mk hText.symm

theorem pieces_intercalate
    {names : List String}
    (hSome : names ≠ [])
    (hSlash : ∀ name ∈ names, '/' ∉ name.toList) :
    (Path.mk ("/".intercalate names)).pieces = names := by
  have hChars :
      splitSlashes
          (['/'].intercalate (names.map String.toList)) =
        names.map String.toList := by
    apply splitSlashes_intercalate (by simpa using hSome)
    intro piece hPiece
    rcases List.mem_map.1 hPiece with ⟨name, hName, rfl⟩
    exact hSlash name hName
  have hSame : String.ofList ∘ String.toList = id := by
    funext name
    exact String.ofList_toList
  unfold pieces
  dsimp only
  rw [String.toList_intercalate, show "/".toList = ['/'] from rfl,
    hChars, List.map_map, hSame, List.map_id]

------------------------------------------------------------
-- Steps
------------------------------------------------------------

/- The pieces of a path that say something. -/
def parts
    (p : Path) : List String :=
  p.pieces.filter (fun piece => !isIdle piece)

/- The components of a path, a leading dot apart. -/
def steps
    (p : Path) : List PathComponent :=
  p.components.filter (fun component => component ≠ .here)

/- A first piece that is no name says nothing as a piece. -/
theorem parts_eq
    (p : Path) :
    p.parts = p.body.filter (fun piece => !isIdle piece) := by
  unfold parts body
  cases hLead : p.lead? with
  | none => rfl
  | some lead =>
      have hHead :
          p.pieces.head? = some "" ∨ p.pieces.head? = some "." := by
        unfold lead? at hLead
        split at hLead
        · next hAbsolute =>
            exact Or.inl (head?_pieces_of_isAbsolute hAbsolute)
        · split at hLead
          · next hHere => exact Or.inr hHere
          · cases hLead
      cases hPieces : p.pieces with
      | nil => rfl
      | cons piece rest =>
          have hIdle : isIdle piece = true := by
            rw [hPieces] at hHead
            rcases hHead with hNone | hDot
            · rw [Option.some.inj hNone]
              rfl
            · rw [Option.some.inj hDot]
              rfl
          rw [List.filter_cons_of_neg (by simp [hIdle])]
          rfl

theorem components_eq
    (p : Path) :
    p.components =
      p.lead?.toList ++ p.parts.map componentOf := by
  rw [parts_eq]
  rfl

/- The steps of a path start at the root or at its first part. -/
theorem steps_eq
    (p : Path) :
    p.steps =
      (if p.isAbsolute then [.root] else []) ++
        p.parts.map componentOf := by
  have hParts :
      (p.parts.map componentOf).filter
          (fun component => component ≠ .here) =
        p.parts.map componentOf := by
    apply List.filter_eq_self.2
    intro component hMem
    rcases List.mem_map.1 hMem with ⟨piece, -, rfl⟩
    unfold componentOf
    split <;> rfl
  unfold steps
  rw [components_eq, List.filter_append, hParts]
  unfold lead?
  cases p.isAbsolute with
  | true => rfl
  | false =>
      rw [if_neg Bool.false_ne_true, if_neg Bool.false_ne_true]
      split <;> rfl

/- The name that a component stands for, if it is one. -/
def nameOf? : PathComponent → Option String
  | .name text => some text
  | _ => none

theorem names_eq_filterMap
    (p : Path) :
    p.names = p.components.filterMap nameOf? :=
  rfl

/- The names of a path are its parts that do not lead upward. -/
theorem names_eq
    (p : Path) :
    p.names = p.parts.filter (fun part => part ≠ "..") := by
  have hLead : p.lead?.toList.filterMap nameOf? = [] := by
    unfold lead?
    split
    · rfl
    · split <;> rfl
  rw [names_eq_filterMap, components_eq, List.filterMap_append,
    hLead, List.nil_append, List.filterMap_map]
  induction p.parts with
  | nil => rfl
  | cons part parts ih =>
      rw [List.filterMap_cons, List.filter_cons, ih]
      by_cases hUp : part = ".."
      · simp [componentOf, nameOf?, hUp]
      · simp [componentOf, nameOf?, hUp]

/- Names stand for themselves wherever they are written. -/
theorem isPlain_of_mem_names
    {p : Path}
    {name : String}
    (hMem : name ∈ p.names) :
    IsPlain name := by
  rw [names_eq, List.mem_filter] at hMem
  rcases hMem with ⟨hPart, hUp⟩
  rcases List.mem_filter.1 hPart with ⟨hPiece, hIdle⟩
  exact ⟨slash_notMem_of_mem_pieces hPiece, by simpa using hIdle,
    by simpa using hUp⟩

/- The name at the end of a path is the last of its names. -/
theorem getLast?_names
    {p : Path}
    {name : String}
    (hName : p.fileName? = some name) :
    p.names.getLast? = some name := by
  unfold fileName? at hName
  split at hName
  · next text hLast =>
      rcases List.getLast?_eq_some_iff.1 hLast with
        ⟨before, hComponents⟩
      rw [← Option.some.inj hName, names_eq_filterMap,
        hComponents, List.filterMap_append]
      exact List.getLast?_concat
  · cases hName

------------------------------------------------------------
-- Joining
------------------------------------------------------------

/-
  The pieces that stay when something is written behind a path:
  an empty last piece becomes the first one of what follows.
-/
def front
    (p : Path) : List String :=
  if p.pieces.getLast? = some "" then p.pieces.dropLast
  else p.pieces

theorem front_of_concat
    {p : Path}
    {before : List String}
    {last : String}
    (hPieces : p.pieces = before ++ [last]) :
    p.front = if last = "" then before else before ++ [last] := by
  unfold front
  rw [hPieces, List.getLast?_concat, List.dropLast_concat]
  simp only [Option.some.injEq]

theorem parts_front
    (p : Path) :
    p.front.filter (fun piece => !isIdle piece) = p.parts := by
  unfold front parts
  split
  · next hLast =>
      rcases List.getLast?_eq_some_iff.1 hLast with
        ⟨before, hPieces⟩
      rw [hPieces, List.dropLast_concat, List.filter_append]
      simp [isIdle]
  · rfl

variable
  {p q : Path}
  (hRelative : q.isAbsolute = false)

include hRelative

theorem pieces_join :
    (p.join q).pieces = p.front ++ q.pieces := by
  unfold join
  rw [hRelative, if_neg Bool.false_ne_true]
  by_cases hEnd :
      p.text = "" ∨ p.text.toList.getLast? = some '/'
  · rw [if_pos (by simpa using hEnd)]
    rcases hEnd with hNone | hLast
    · have hFront : p.front = [] := by
        unfold front pieces
        rw [hNone]
        rfl
      rw [hFront, hNone]
      simp
    · rcases List.getLast?_eq_some_iff.1 hLast with
        ⟨before, hText⟩
      have hPieces :
          p.pieces =
            (splitSlashes before).map String.ofList ++ [""] := by
        unfold pieces
        rw [hText, splitSlashes_append, List.map_append]
        rfl
      have hFront :
          p.front = (splitSlashes before).map String.ofList := by
        unfold front
        rw [hPieces, List.getLast?_concat, if_pos rfl,
          List.dropLast_concat]
      rw [hFront]
      unfold pieces
      rw [String.toList_append, hText, List.append_assoc,
        List.singleton_append, splitSlashes_append,
        List.map_append]
  · have hFront : p.front = p.pieces := by
      unfold front
      rw [if_neg]
      intro hLast
      unfold pieces at hLast
      rw [List.getLast?_map, Option.map_eq_some_iff] at hLast
      rcases hLast with ⟨piece, hPiece, hNone⟩
      have hNil : piece = [] := by
        rw [← String.toList_ofList (l := piece), hNone]
        rfl
      rw [hNil] at hPiece
      rcases getLast?_splitSlashes hPiece with hText | hSlash
      · exact hEnd (Or.inl (String.toList_injective hText))
      · exact hEnd (Or.inr hSlash)
    rw [if_neg (by simpa using hEnd), hFront]
    unfold pieces
    rw [String.toList_append, String.toList_append,
      List.append_assoc]
    exact (congrArg (List.map String.ofList)
      (splitSlashes_append _ _)).trans List.map_append

theorem isAbsolute_join :
    (p.join q).isAbsolute = p.isAbsolute := by
  unfold join
  rw [hRelative, if_neg Bool.false_ne_true]
  by_cases hNone : p.text = ""
  · have hText : (Path.mk (p.text ++ q.text)) = q := by
      rw [hNone, String.empty_append]
    have hHere : p.isAbsolute = false := by
      unfold isAbsolute
      rw [hNone]
      rfl
    rw [if_pos (by simp [hNone]), hText, hRelative, hHere]
  · have hHead :
        ∀ text : String,
          (p.text ++ text).toList.head? = p.text.toList.head? := by
      intro text
      rw [String.toList_append]
      cases hChars : p.text.toList with
      | nil => exact absurd (String.toList_injective hChars) hNone
      | cons c rest => rfl
    unfold isAbsolute
    split
    · rw [hHead]
    · dsimp only
      rw [String.append_assoc, hHead]

theorem parts_join :
    (p.join q).parts = p.parts ++ q.parts := by
  unfold parts
  rw [pieces_join hRelative, List.filter_append]
  exact congrArg (· ++ _) (parts_front p)

/- Behind a path, another takes its own steps. -/
theorem steps_join :
    (p.join q).steps = p.steps ++ q.steps := by
  rw [steps_eq, steps_eq, steps_eq, isAbsolute_join hRelative,
    parts_join hRelative, hRelative, List.map_append]
  simp

theorem names_join :
    (p.join q).names = p.names ++ q.names := by
  rw [names_eq, names_eq, names_eq, parts_join hRelative,
    List.filter_append]

/- It does not matter which two of three paths are joined first. -/
theorem join_assoc
    (r : Path) :
    (r.join p).join q = r.join (p.join q) := by
  by_cases hAbsolute : p.isAbsolute = true
  · have hBoth : (p.join q).isAbsolute = true := by
      rw [isAbsolute_join hRelative, hAbsolute]
    unfold join at hBoth ⊢
    rw [hAbsolute, if_pos rfl]
    rw [hBoth, if_pos rfl]
  · rw [Bool.not_eq_true] at hAbsolute
    have hBoth : (p.join q).isAbsolute = false := by
      rw [isAbsolute_join hRelative, hAbsolute]
    have hFront : (r.join p).front = r.front ++ p.front := by
      rcases List.eq_nil_or_concat p.pieces with
        hNil | ⟨before, last, hPieces⟩
      · exact absurd hNil (pieces_ne_nil p)
      · rw [List.concat_eq_append] at hPieces
        have hLonger :
            (r.join p).pieces = (r.front ++ before) ++ [last] := by
          rw [pieces_join hAbsolute, hPieces, List.append_assoc]
        rw [front_of_concat hLonger, front_of_concat hPieces]
        split
        · rfl
        · exact List.append_assoc _ _ _
    apply eq_of_pieces_eq
    rw [pieces_join hRelative, pieces_join hBoth,
      pieces_join hRelative, hFront, List.append_assoc]

omit hRelative

------------------------------------------------------------
-- Paths with the same steps
------------------------------------------------------------

/- A path starts at the root if its first step is there. -/
theorem isAbsolute_eq_of_steps_eq
    (hSame : q.steps = p.steps) :
    q.isAbsolute = p.isAbsolute := by
  have hRoot :
      ∀ r : Path, r.isAbsolute = true ↔ .root ∈ r.steps := by
    intro r
    rw [steps_eq]
    cases r.isAbsolute with
    | true => simp
    | false =>
        simp only [Bool.false_eq_true, if_false,
          List.nil_append, List.mem_map, false_iff]
        rintro ⟨part, -, hPart⟩
        unfold componentOf at hPart
        split at hPart <;> cases hPart
  rw [Bool.eq_iff_iff, hRoot, hRoot, hSame]

theorem componentOf_injective
    {a b : String}
    (hSame : componentOf a = componentOf b) :
    a = b := by
  unfold componentOf at hSame
  split at hSame
  · next hUp =>
      split at hSame
      · next hUp' => rw [hUp, hUp']
      · cases hSame
  · split at hSame
    · cases hSame
    · exact PathComponent.name.inj hSame

/- Paths with the same steps have the same parts. -/
theorem parts_eq_of_steps_eq
    (hSame : q.steps = p.steps) :
    q.parts = p.parts := by
  have hRoot := isAbsolute_eq_of_steps_eq hSame
  rw [steps_eq, steps_eq, hRoot] at hSame
  exact (List.map_inj_right
    (fun _ _ => componentOf_injective)).1
      (List.append_cancel_left hSame)

------------------------------------------------------------
-- Portable forms
------------------------------------------------------------

/- A path that neither starts at the root nor leads upward. -/
structure IsInner (p : Path) : Prop where
  relative : p.isAbsolute = false
  up : PathComponent.up ∉ p.components

/- A path leads upward by two dots, and by nothing else. -/
theorem up_mem_components_iff :
    PathComponent.up ∈ p.components ↔ ".." ∈ p.parts := by
  have hLead : PathComponent.up ∉ p.lead?.toList := by
    unfold lead?
    split
    · decide
    · split <;> decide
  rw [components_eq, List.mem_append, List.mem_map]
  constructor
  · rintro (hMem | ⟨part, hPart, hUp⟩)
    · exact absurd hMem hLead
    · unfold componentOf at hUp
      split at hUp
      · next hDots =>
          rw [← hDots]
          exact hPart
      · cases hUp
  · exact fun hMem => Or.inr ⟨"..", hMem, rfl⟩

/- All that an inner path says are names. -/
theorem IsInner.names_eq_parts
    (hInner : p.IsInner) :
    p.names = p.parts := by
  rw [names_eq]
  apply List.filter_eq_self.2
  intro part hPart
  rw [decide_eq_true_iff]
  rintro rfl
  exact hInner.up (up_mem_components_iff.2 hPart)

/- Behind another path, an inner path is as inner as that is. -/
theorem isInner_join_iff
    (hQ : q.IsInner) :
    (p.join q).IsInner ↔ p.IsInner := by
  have hParts := parts_join (p := p) hQ.relative
  have hRoot := isAbsolute_join (p := p) hQ.relative
  have hUp : ".." ∉ q.parts :=
    fun hMem => hQ.up (up_mem_components_iff.2 hMem)
  constructor
  · rintro ⟨hRelative, hInner⟩
    rw [hRoot] at hRelative
    rw [up_mem_components_iff, hParts, List.mem_append,
      not_or, ← up_mem_components_iff] at hInner
    exact ⟨hRelative, hInner.1⟩
  · rintro ⟨hRelative, hInner⟩
    rw [up_mem_components_iff] at hInner
    constructor
    · rw [hRoot, hRelative]
    · rw [up_mem_components_iff, hParts, List.mem_append,
        not_or]
      exact ⟨hInner, hUp⟩

/- The portable form of a path has the names for its pieces. -/
theorem pieces_portable
    (hSome : p.names ≠ []) :
    (Path.mk p.portable).pieces = p.names :=
  pieces_intercalate hSome
    (fun _ hName => (isPlain_of_mem_names hName).slash)

theorem parts_portable
    (p : Path) :
    (Path.mk p.portable).parts = p.names := by
  by_cases hSome : p.names = []
  · have hNone : p.portable = "" := by
      unfold portable
      rw [hSome]
      rfl
    rw [hNone, hSome]
    rfl
  · unfold parts
    rw [pieces_portable hSome]
    apply List.filter_eq_self.2
    intro name hName
    rw [(isPlain_of_mem_names hName).idle]
    rfl

theorem isAbsolute_portable
    (p : Path) :
    (Path.mk p.portable).isAbsolute = false := by
  rw [← Bool.not_eq_true]
  intro hAbsolute
  by_cases hSome : p.names = []
  · unfold isAbsolute portable at hAbsolute
    rw [hSome] at hAbsolute
    revert hAbsolute
    decide
  · have hHead := head?_pieces_of_isAbsolute hAbsolute
    rw [pieces_portable hSome] at hHead
    have hIdle :=
      (isPlain_of_mem_names (List.mem_of_mem_head? hHead)).idle
    revert hIdle
    decide

/- The steps of a portable form go from name to name. -/
theorem steps_portable
    (p : Path) :
    (Path.mk p.portable).steps =
      p.names.map PathComponent.name := by
  rw [steps_eq, isAbsolute_portable, parts_portable,
    if_neg Bool.false_ne_true, List.nil_append]
  apply List.map_congr_left
  intro name hName
  unfold componentOf
  rw [if_neg (isPlain_of_mem_names hName).up]

/- Just inner paths take the steps that are recorded of them. -/
theorem steps_portable_iff :
    (Path.mk p.portable).steps = p.steps ↔ p.IsInner := by
  rw [steps_portable, steps_eq]
  constructor
  · intro hSame
    have hNames :
        ∀ component ∈ p.names.map PathComponent.name,
          component ≠ .root ∧ component ≠ .up := by
      intro component hMem
      rcases List.mem_map.1 hMem with ⟨name, -, rfl⟩
      exact ⟨nofun, nofun⟩
    rw [hSame] at hNames
    constructor
    · rw [← Bool.not_eq_true]
      intro hAbsolute
      rw [hAbsolute] at hNames
      exact (hNames .root List.mem_cons_self).1 rfl
    · rw [up_mem_components_iff]
      intro hMem
      refine (hNames .up (List.mem_append_right _ ?_)).2 rfl
      exact List.mem_map.2 ⟨"..", hMem, rfl⟩
  · intro hInner
    rw [hInner.relative, if_neg Bool.false_ne_true,
      List.nil_append, hInner.names_eq_parts]
    apply List.map_congr_left
    intro part hPart
    rw [← hInner.names_eq_parts] at hPart
    unfold componentOf
    rw [if_neg (isPlain_of_mem_names hPart).up]

/-
  Behind a path, just inner paths lead where their portable
  forms do, unless both are absolute.
-/
theorem steps_join_portable_iff
    (hRelative :
      p.isAbsolute = false ∨ q.isAbsolute = false) :
    (p.join ⟨q.portable⟩).steps = (p.join q).steps ↔
      q.IsInner := by
  have hRecorded := isAbsolute_portable q
  cases hAbsolute : q.isAbsolute with
  | false =>
      rw [steps_join hRecorded, steps_join hAbsolute,
        List.append_cancel_left_eq, steps_portable_iff]
  | true =>
      have hRoot : p.isAbsolute = false := by
        rw [hAbsolute] at hRelative
        exact hRelative.resolve_right (by decide)
      constructor
      · intro hSame
        have hBoth := isAbsolute_eq_of_steps_eq hSame
        unfold join at hBoth
        rw [hAbsolute, if_pos rfl, hAbsolute] at hBoth
        have hFirst := isAbsolute_join (p := p) hRecorded
        unfold join at hFirst
        rw [hBoth, hRoot] at hFirst
        cases hFirst
      · intro hInner
        rw [hInner.relative] at hAbsolute
        cases hAbsolute

/- Paths with the same portable form have the same names. -/
theorem names_eq_of_portable_eq
    (hSame : p.portable = q.portable) :
    p.names = q.names := by
  rw [← parts_portable p, hSame, parts_portable]

end Path

end SnapTree
