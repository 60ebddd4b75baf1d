import MissionCatalog.Details
import MissionCatalog.Text.Quoted

/-!
Why no mission database can be built from a definition, or loaded from a file.
-/
namespace MissionCatalog

inductive BuildError where
  | badSystemName (name parent : String)
  | badMemberName (name system : String)
  | duplicate (kind : Kind) (name : String)
  /-- Two entities of a kind claim the same key. -/
  | sharedKey (kind : Kind) (key : Key) (first second : String)
  /-- A member refers to something that is not declared. -/
  | unknown (member : String) (reference : Reference)
deriving DecidableEq, Repr

def BuildError.message : BuildError → String
  | badSystemName name parent => "invalid space system name '" ++ name ++ "' under '" ++ parent ++ "'"
  | badMemberName name system =>
    "invalid entity name '" ++ name ++ "' in space system '" ++ system ++ "'"
  | duplicate kind name => "duplicate " ++ kind.label ++ " " ++ name
  | sharedKey kind key first second =>
    kind.label ++ " alias " ++ key.space ++ "/" ++ key.name ++ " is used by both " ++ first ++
      " and " ++ second
  | unknown member ⟨role, name⟩ =>
    match role with
    | .type => "parameter " ++ member ++ " references unknown type " ++ name
    | .baseContainer => "container " ++ member ++ " has unknown base " ++ name
    | .parameterEntry =>
      "container " ++ member ++ " has a dangling entry Parameter(" ++ Text.quoted name ++ ")"
    | .containerEntry =>
      "container " ++ member ++ " has a dangling entry Container(" ++ Text.quoted name ++ ")"
    | .baseCommand => "command " ++ member ++ " has unknown base " ++ name
    | .algorithmParameter => "algorithm " ++ member ++ " references unknown parameter " ++ name

inductive LoadError where
  /-- The text is no definition. -/
  | noDefinition
  | build (cause : BuildError)
  | noFile (path : String)
  | inFile (path : String) (cause : LoadError)
deriving Repr

/-- The error and its causes, outermost first. -/
def LoadError.messages : LoadError → List String
  | noDefinition => ["invalid catalog definition"]
  | build cause => [cause.message]
  | noFile path => ["failed to read catalog " ++ path]
  | inFile path cause => ("failed to load " ++ path) :: cause.messages

end MissionCatalog
