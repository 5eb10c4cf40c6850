/-
  This file defines how a synchronization is to go about its
  work.

  Key definitions include:
    * `ValidationMode`
    * `SyncSettings`
    * `SyncSettings.supports`
    * `SyncSettings.isValid`
-/

namespace SnapTree

/- When the result is compared with what was asked for. -/
inductive ValidationMode where
  | off
  | debug
  | always
deriving DecidableEq

namespace ValidationMode

/- The validation modes. -/
def all : List ValidationMode :=
  [.off, .debug, .always]

/- The name of a validation mode. -/
def name : ValidationMode → String
  | .off => "off"
  | .debug => "debug"
  | .always => "always"

/- Whether results are compared; debugging is never off here. -/
def isEnabled : ValidationMode → Bool
  | .off => false
  | .debug => true
  | .always => true

end ValidationMode

/- How a synchronization is to go about its work. -/
structure SyncSettings where
  bulkDocumentThreshold : Nat := 2
  validate : ValidationMode := .debug
  supportedLanguages : List String := []
  warnOnSkippedProjects : Bool := true
deriving DecidableEq

namespace SyncSettings

/- Whether projects of a language can be held; at first, all. -/
def supports
    (s : SyncSettings)
    (language : String) : Bool :=
  s.supportedLanguages.isEmpty ||
    s.supportedLanguages.contains language

/- Whether a character is white space in Unicode's sense. -/
def isBlank
    (c : Char) : Bool :=
  let n := c.toNat
  (0x09 ≤ n && n ≤ 0x0d) || n == 0x20 || n == 0x85 ||
    n == 0xa0 || n == 0x1680 ||
    (0x2000 ≤ n && n ≤ 0x200a) || n == 0x2028 ||
    n == 0x2029 || n == 0x202f || n == 0x205f || n == 0x3000

/- Settings are valid if every language has a name. -/
def isValid
    (s : SyncSettings) : Bool :=
  s.supportedLanguages.all
    (fun language => !(language.toList.all isBlank))

/- The text for settings that are not valid. -/
def invalidMessage : String :=
  "invalid value for supported_languages: " ++
    "language names must not be empty"

end SyncSettings

end SnapTree
