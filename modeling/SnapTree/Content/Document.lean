import SnapTree.Content.Identity

/-
  This file defines what is said about a single document, and
  the three kinds of document that a project keeps apart.

  Key definitions include:
    * `DocumentKind`
    * `ByKind`
    * `DocumentAttributes`
    * `FrozenIdentity`
-/

namespace SnapTree

------------------------------------------------------------
-- Kinds of document
------------------------------------------------------------

/- The collections that a document of a project can be in. -/
inductive DocumentKind where
  | ordinary
  | additional
  | analyzerConfig
deriving DecidableEq

namespace DocumentKind

/- The kinds in the order in which they are worked through. -/
def all : List DocumentKind :=
  [.ordinary, .additional, .analyzerConfig]

/- The name of a kind. -/
def name : DocumentKind → String
  | .ordinary => "Document"
  | .additional => "Additional"
  | .analyzerConfig => "AnalyzerConfig"

end DocumentKind

/- One thing for each kind of document. -/
structure ByKind (α : Type) where
  ordinary : α
  additional : α
  analyzerConfig : α
deriving DecidableEq

namespace ByKind

variable {α β : Type}

/- The thing for one kind. -/
def get
    (b : ByKind α) : DocumentKind → α
  | .ordinary => b.ordinary
  | .additional => b.additional
  | .analyzerConfig => b.analyzerConfig

/- Replace the thing for one kind. -/
def set
    (b : ByKind α)
    (kind : DocumentKind)
    (a : α) : ByKind α :=
  match kind with
  | .ordinary => { b with ordinary := a }
  | .additional => { b with additional := a }
  | .analyzerConfig => { b with analyzerConfig := a }

/- The things that a function gives for the kinds. -/
def ofFn
    (f : DocumentKind → α) : ByKind α :=
  ⟨f .ordinary, f .additional, f .analyzerConfig⟩

/- The three things, in the order of their kinds. -/
def toList
    (b : ByKind α) : List α :=
  DocumentKind.all.map b.get

@[simp]
theorem get_ofFn
    (f : DocumentKind → α)
    (kind : DocumentKind) :
    (ofFn f).get kind = f kind := by
  cases kind <;> rfl

@[simp]
theorem get_set_self
    (b : ByKind α)
    (kind : DocumentKind)
    (a : α) :
    (b.set kind a).get kind = a := by
  cases kind <;> rfl

theorem get_set_of_ne
    (b : ByKind α)
    {kind other : DocumentKind}
    (h : other ≠ kind)
    (a : α) :
    (b.set kind a).get other = b.get other := by
  cases kind <;> cases other <;> first | rfl | exact absurd rfl h

/- Two such triples are equal when they agree on every kind. -/
theorem ext_get
    {b c : ByKind α}
    (h : ∀ kind, b.get kind = c.get kind) :
    b = c := by
  cases b
  cases c
  have h1 := h .ordinary
  have h2 := h .additional
  have h3 := h .analyzerConfig
  simp only [get] at h1 h2 h3
  rw [h1, h2, h3]

end ByKind

------------------------------------------------------------
-- Attributes
------------------------------------------------------------

/- How the text of a document is to be read. -/
inductive SourceKind where
  | regular
  | script
deriving DecidableEq

namespace SourceKind

/- The source kinds in the order of their indices. -/
def all : List SourceKind :=
  [.regular, .script]

/- The name of a source kind. -/
def name : SourceKind → String
  | .regular => "Regular"
  | .script => "Script"

end SourceKind

/- What is said about a document, its text apart. -/
structure DocumentAttributes where
  id : DocumentId
  name : String
  folders : List String := []
  sourceKind : SourceKind := .regular
  filePath : Option String := none
  isGenerated : Bool := false
  designTimeOnly : Bool := false
deriving DecidableEq

/- The identity of a provisional generated document. -/
structure FrozenIdentity where
  documentId : DocumentId
  projectId : ProjectId
  hintName : String
  filePath : String
deriving DecidableEq

end SnapTree
