import Zerver.UserGroups.Store
import Zerver.UserGroups.Closure
import Zerver.UserGroups.SettingValue
import Zerver.UserGroups.Actions
import Zerver.UserGroups.Views
import Zerver.UserGroups.Members
import Zerver.UserGroups.Subgroups
import Zerver.UserGroups.Edit
import Zerver.UserGroups.Lifecycle
import Zerver.UserGroups.Invariant
import Zerver.UserGroups.Realm
import Zerver.UserGroups.Locality
import Zerver.UserGroups.Effective
import Zerver.UserGroups.ReadBack
import Zerver.UserGroups.Names
import Zerver.UserGroups.Undo
import Zerver.UserGroups.Concurrent.Model
import Zerver.UserGroups.Concurrent.Serial
import Zerver.UserGroups.Concurrent.Acyclic
import Zerver.UserGroups.Concurrent.Locks
import Zerver.UserGroups.Concurrent.Members
import Zerver.UserGroups.Concurrent.Rows
import Zerver.UserGroups.Concurrent.MemberProgress
import Zerver.UserGroups.Permission
import Zerver.UserGroups.Concurrent.Completion
import Zerver.UserGroups.Graph
import Zerver.UserGroups.GraphRuns
import Zerver.UserGroups.Ownership
import Zerver.UserGroups.Commute
import Zerver.UserGroups.Noninterference
