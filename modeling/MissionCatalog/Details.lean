import MissionCatalog.DataType.Basic
import MissionCatalog.Kind
import MissionCatalog.ObjectId

/-!
What is said about the members of a space system: of every member the same head, and details that
depend on its kind. Details refer to other members by name; `references` lists the names and
`mapReferences` changes them, in the same places.
-/
namespace MissionCatalog

structure Head where
  name : String
  description : Option String
  longDescription : Option String
  /-- Further ids under which the entity can be looked up. -/
  aliases : List ObjectId
deriving DecidableEq, Repr

/-- Where the values of a parameter come from. -/
inductive DataSource where
  | telemetered
  | derived
  | constant
  | local
  | system
  | command
  | commandHistory
  | external1
  | external2
  | external3
  | ground
deriving DecidableEq, Repr

/-- In which context an algorithm runs. -/
inductive AlgorithmScope where
  | global
  | commandVerification
  | containerProcessing
deriving DecidableEq, Repr

inductive ContainerEntry where
  | parameter (name : String)
  | container (name : String)
deriving DecidableEq, Repr

structure Argument where
  name : String
  description : Option String
  type : String
  initialValue : Option String
deriving DecidableEq, Repr

structure TypeDetails where
  units : Option String
  dataType : DataType

structure ParameterDetails where
  type : Option String
  source : Option DataSource
deriving DecidableEq, Repr

structure ContainerDetails where
  base : Option String
  archivePartition : Bool
  sizeInBits : Option UInt32
  entries : List ContainerEntry
deriving DecidableEq, Repr

structure CommandDetails where
  base : Option String
  /-- The command only serves as a base for others and cannot be issued. -/
  isAbstract : Bool
  significance : Option String
  arguments : List Argument
deriving DecidableEq, Repr

structure AlgorithmDetails where
  scope : AlgorithmScope
  language : Option String
  text : Option String
  inputs : List String
  outputs : List String
deriving DecidableEq, Repr

abbrev MemberKind.Details : MemberKind → Type
  | .parameterType => TypeDetails
  | .parameter => ParameterDetails
  | .container => ContainerDetails
  | .command => CommandDetails
  | .algorithm => AlgorithmDetails

/-- What a member refers to another one as. -/
inductive Role where
  | type
  | baseContainer
  | parameterEntry
  | containerEntry
  | baseCommand
  | algorithmParameter
deriving DecidableEq, Repr

def Role.target : Role → MemberKind
  | .type => .parameterType
  | .baseContainer => .container
  | .parameterEntry => .parameter
  | .containerEntry => .container
  | .baseCommand => .command
  | .algorithmParameter => .parameter

structure Reference where
  role : Role
  name : String
deriving DecidableEq, Repr

namespace ContainerEntry

def reference : ContainerEntry → Reference
  | parameter name => ⟨.parameterEntry, name⟩
  | container name => ⟨.containerEntry, name⟩

def map (f : String → String) : ContainerEntry → ContainerEntry
  | parameter name => parameter (f name)
  | container name => container (f name)

@[simp] theorem reference_map (f : String → String) (e : ContainerEntry) :
    (e.map f).reference = ⟨e.reference.role, f e.reference.name⟩ := by cases e <;> rfl

end ContainerEntry

namespace MemberKind

/-- All references of a member, in the order in which they are checked. -/
def references : (k : MemberKind) → k.Details → List Reference
  | .parameterType, _ => []
  | .parameter, d => d.type.toList.map (⟨.type, ·⟩)
  | .container, d => d.base.toList.map (⟨.baseContainer, ·⟩) ++ d.entries.map (·.reference)
  | .command, d => d.base.toList.map (⟨.baseCommand, ·⟩)
  | .algorithm, d => (d.inputs ++ d.outputs).map (⟨.algorithmParameter, ·⟩)

def mapReferences (f : String → String) : (k : MemberKind) → k.Details → k.Details
  | .parameterType, d => d
  | .parameter, d => { d with type := d.type.map f }
  | .container, d => { d with base := d.base.map f, entries := d.entries.map (·.map f) }
  | .command, d => { d with base := d.base.map f }
  | .algorithm, d => { d with inputs := d.inputs.map f, outputs := d.outputs.map f }

theorem references_mapReferences (f : String → String) (k : MemberKind) (d : k.Details) :
    references k (mapReferences f k d) =
      (references k d).map fun r => ⟨r.role, f r.name⟩ := by
  cases k with
  | parameterType => rfl
  | parameter => cases h : d.type <;> simp [references, mapReferences, h]
  | container => cases h : d.base <;> simp [references, mapReferences, h]
  | command => cases h : d.base <;> simp [references, mapReferences, h]
  | algorithm => simp [references, mapReferences, Function.comp_def]

end MemberKind

namespace DataSource

def all : List DataSource :=
  [telemetered, derived, constant, .local, system, command, commandHistory, external1, external2,
    external3, ground]

def text : DataSource → String
  | telemetered => "TELEMETERED"
  | derived => "DERIVED"
  | constant => "CONSTANT"
  | .local => "LOCAL"
  | system => "SYSTEM"
  | command => "COMMAND"
  | commandHistory => "COMMAND_HISTORY"
  | external1 => "EXTERNAL1"
  | external2 => "EXTERNAL2"
  | external3 => "EXTERNAL3"
  | ground => "GROUND"

def ofText? (s : String) : Option DataSource := all.find? (·.text = s)

theorem ofText?_text (d : DataSource) : ofText? d.text = some d := by cases d <;> decide

end DataSource

namespace AlgorithmScope

def all : List AlgorithmScope := [global, commandVerification, containerProcessing]

def text : AlgorithmScope → String
  | global => "GLOBAL"
  | commandVerification => "COMMAND_VERIFICATION"
  | containerProcessing => "CONTAINER_PROCESSING"

def ofText? (s : String) : Option AlgorithmScope := all.find? (·.text = s)

theorem ofText?_text (a : AlgorithmScope) : ofText? a.text = some a := by cases a <;> decide

end AlgorithmScope

end MissionCatalog
