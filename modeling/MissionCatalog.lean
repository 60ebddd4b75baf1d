import MissionCatalog.Config.Format
import MissionCatalog.Config.Layers
import MissionCatalog.Database.Format
import MissionCatalog.Http.Service
import MissionCatalog.Main
import MissionCatalog.MemberPath.Parser
import MissionCatalog.Projection
import MissionCatalog.Store
import MissionCatalog.ViewLog
import MissionCatalog.Proofs.Json.RoundTrip
import MissionCatalog.Proofs.PageKey
import MissionCatalog.Proofs.Database.Build
import MissionCatalog.Proofs.Database.Tree
import MissionCatalog.Proofs.Page.Cut
import MissionCatalog.Proofs.Page.Offset
import MissionCatalog.Proofs.Page.Enumeration
import MissionCatalog.Proofs.Search
import MissionCatalog.Proofs.Fragments
import MissionCatalog.Proofs.View.Answers
import MissionCatalog.Proofs.View.Enumeration
import MissionCatalog.Proofs.Database.WellFormed
import MissionCatalog.Proofs.Database.Acceptance
import MissionCatalog.Proofs.Resolve.Lookup
import MissionCatalog.Proofs.Resolve.Parameter
import MissionCatalog.Proofs.View.Noninterference
import MissionCatalog.Proofs.Database.Index
import MissionCatalog.Proofs.Resolve.Namespaces
import MissionCatalog.Proofs.Json.Record
import MissionCatalog.Proofs.Text
import MissionCatalog.Proofs.Token
import MissionCatalog.Proofs.MemberPath.Walk
import MissionCatalog.Proofs.MemberPath.Places
import MissionCatalog.Proofs.MemberPath.Existence
import MissionCatalog.Proofs.MemberPath.Fits
import MissionCatalog.Proofs.MemberPath.Grammar
import MissionCatalog.Proofs.MemberPath.Reading
import MissionCatalog.Proofs.Resolve.Member
import MissionCatalog.Proofs.View.Gets
import MissionCatalog.Proofs.View.Batch
import MissionCatalog.Proofs.View.Members
import MissionCatalog.Proofs.View.Preorder
import MissionCatalog.Proofs.Database.Ancestry
import MissionCatalog.Proofs.Definition.Position
import MissionCatalog.Proofs.Database.Mirror
import MissionCatalog.Proofs.Database.Subtree
import MissionCatalog.Proofs.Browsing
import MissionCatalog.Proofs.Definition.Order
import MissionCatalog.Proofs.Database.Order
import MissionCatalog.Proofs.View.Order
import MissionCatalog.Proofs.Json.Written
import MissionCatalog.Proofs.DataType
import MissionCatalog.Proofs.Definition.RoundTrip
import MissionCatalog.Proofs.View.Scopes
import MissionCatalog.Proofs.View.Privileges
import MissionCatalog.Proofs.Projection
import MissionCatalog.Proofs.Database.Users
import MissionCatalog.Proofs.Database.Walks
import MissionCatalog.Proofs.DetailLevels
import MissionCatalog.Proofs.View.Agreement
import MissionCatalog.Proofs.ByteOffset
import MissionCatalog.Proofs.Resolve.Cutting
