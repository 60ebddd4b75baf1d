import MissionCatalog.Kind
import MissionCatalog.MemberPath.Parser
import MissionCatalog.ObjectId

/-!
Why a query has no answer.
-/
namespace MissionCatalog

inductive QueryError where
  | missingNamespace (kind : Kind)
  | noSuch (kind : Kind)
  | noParameter (path : String)
  | badMemberPath (path : String) (cause : PathError)
  /-- The parameter's type has no such member. -/
  | noMember (name : String) (path : MemberPath)
  | noCatalogAccess (user : String)
  | noAccess (kind : Kind) (name : String)
  | zeroLimit
  | badToken
  | tokenVersion (v : Nat)
  | unnamedId
  | unknownId (id : ObjectId)
deriving DecidableEq, Repr

inductive QueryError.Category where
  | notFound
  | forbidden
  | badRequest
deriving DecidableEq, Repr

namespace QueryError

def category : QueryError → Category
  | missingNamespace _ | noSuch _ | noParameter _ | badMemberPath .. | noMember .. => .notFound
  | noCatalogAccess _ | noAccess .. => .forbidden
  | zeroLimit | badToken | tokenVersion _ | unnamedId | unknownId _ => .badRequest

def message : QueryError → String
  | missingNamespace kind => "No such " ++ kind.label ++ " (missing namespace?)"
  | noSuch kind => "No such " ++ kind.label
  | noParameter path => "No parameter named " ++ path
  | badMemberPath path cause =>
    "Invalid array/aggregate path in name " ++ path ++ " (" ++ cause.message ++ ")"
  | noMember name path => "Nonexistent array/aggregate path in name " ++ name ++ path.text
  | noCatalogAccess user => "Insufficient privileges: " ++ user ++ " needs ReadCatalog"
  | noAccess kind name => "Insufficient privileges to access " ++ kind.label ++ " " ++ name
  | zeroLimit => "limit must be greater than zero"
  | badToken => "Invalid continuation token"
  | tokenVersion v => "Unsupported continuation token version " ++ toString v
  | unnamedId => "Parameter id without a name"
  | unknownId id => "Invalid parameter id " ++ id.text

end QueryError

end MissionCatalog
