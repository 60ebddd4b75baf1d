import MissionCatalog.Directory
import MissionCatalog.Entity

/-!
Which containers use a parameter or a container. One pass through the containers notes each of them
under the names in its entries. A parameter and a container may have one name, so their users are
noted apart.
-/
namespace MissionCatalog

/-- The names of the containers with an entry, under the name in the entry. -/
structure UserIndex where
  parameters : Directory (List String)
  containers : Directory (List String)

namespace UserIndex

def empty : UserIndex := ⟨.empty, .empty⟩

def noteIn (notes : Directory (List String)) (name user : String) : Directory (List String) :=
  notes.put name ((notes.get? name).getD [] ++ [user])

def note (user : String) (index : UserIndex) : ContainerEntry → UserIndex
  | .parameter name => { index with parameters := noteIn index.parameters name user }
  | .container name => { index with containers := noteIn index.containers name user }

/-- Notes a container as often as it has entries. -/
def noteAll (index : UserIndex) (c : Container) : UserIndex :=
  c.details.entries.foldl (note c.qualifiedName) index

/-- The names in ascending order, each of them once. -/
def tidy (users : List String) : List String := users.mergeSort.eraseReps

def ofContainers (containers : List Container) : UserIndex :=
  let index := containers.foldl noteAll empty
  ⟨index.parameters.map tidy, index.containers.map tidy⟩

def having (index : UserIndex) : ContainerEntry → List String
  | .parameter name => (index.parameters.get? name).getD []
  | .container name => (index.containers.get? name).getD []

end UserIndex

end MissionCatalog
