/-!
The kinds of entities a mission database declares. Five kinds are members of a space system; the
sixth is the space system itself.
-/
namespace MissionCatalog

inductive MemberKind where
  | parameterType
  | parameter
  | container
  | command
  | algorithm
deriving DecidableEq, Repr

inductive Kind where
  | spaceSystem
  | member (kind : MemberKind)
deriving DecidableEq, Repr

instance : Coe MemberKind Kind := ⟨.member⟩

/-- In the order in which a space system declares its members. -/
def MemberKind.all : List MemberKind :=
  [.parameterType, .parameter, .container, .command, .algorithm]

theorem MemberKind.mem_all (k : MemberKind) : k ∈ all := by cases k <;> decide

def MemberKind.label : MemberKind → String
  | .parameterType => "parameter type"
  | .parameter => "parameter"
  | .container => "container"
  | .command => "command"
  | .algorithm => "algorithm"

/-- The kind as messages call it. -/
def Kind.label : Kind → String
  | .spaceSystem => "space system"
  | .member k => k.label

end MissionCatalog
