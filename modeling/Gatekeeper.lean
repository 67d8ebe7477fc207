import Gatekeeper.Access.Decision
import Gatekeeper.Access.Engine
import Gatekeeper.Access.Header
import Gatekeeper.Access.Token
import Gatekeeper.Access.TokenIndex
import Gatekeeper.Admin
import Gatekeeper.Cache.Basic
import Gatekeeper.Cache.Partition
import Gatekeeper.Cache.Shelf
import Gatekeeper.Cipher.Basic
import Gatekeeper.Cipher.Reversing
import Gatekeeper.Credential.Basic
import Gatekeeper.Credential.Identity
import Gatekeeper.Credential.JsonForm
import Gatekeeper.Credential.UserForm
import Gatekeeper.Credential.Vocabulary
import Gatekeeper.Decimal.Shortest
import Gatekeeper.Hub.Basic
import Gatekeeper.Json.Numeral
import Gatekeeper.Json.Reader
import Gatekeeper.Json.Token
import Gatekeeper.Json.Tree
import Gatekeeper.Json.Value
import Gatekeeper.LogFormat
import Gatekeeper.Proofs.Access.FailClosed
import Gatekeeper.Proofs.Access.OwnToken
import Gatekeeper.Proofs.Access.Token
import Gatekeeper.Proofs.Access.TokenIndex
import Gatekeeper.Proofs.Admin.Effective
import Gatekeeper.Proofs.Cache.Apart
import Gatekeeper.Proofs.Cache.Bookkeeping
import Gatekeeper.Proofs.Cache.Convergence
import Gatekeeper.Proofs.Cache.Exact
import Gatekeeper.Proofs.Cache.Following
import Gatekeeper.Proofs.Cache.Integrity
import Gatekeeper.Proofs.Cache.Rounds
import Gatekeeper.Proofs.Cache.Upkeep
import Gatekeeper.Proofs.Cache.Views
import Gatekeeper.Proofs.Credential.Identity
import Gatekeeper.Proofs.Hub.Course
import Gatekeeper.Proofs.Hub.Delivery
import Gatekeeper.Proofs.Hub.Lasting
import Gatekeeper.Proofs.Hub.PlainMap
import Gatekeeper.Proofs.Hub.Run
import Gatekeeper.Proofs.Record.Format
import Gatekeeper.Proofs.Record.RoundTrip
import Gatekeeper.Proofs.Store.Bearer
import Gatekeeper.Proofs.Store.Effect
import Gatekeeper.Proofs.Store.Path
import Gatekeeper.Proofs.Text.Base64
import Gatekeeper.Proofs.Text.Blank
import Gatekeeper.Proofs.Text.LetterCase
import Gatekeeper.Record.Basic
import Gatekeeper.Record.Format
import Gatekeeper.Registry
import Gatekeeper.Settings
import Gatekeeper.Store.Basic
import Gatekeeper.Store.Link
import Gatekeeper.Store.Path
import Gatekeeper.Store.Watch
import Gatekeeper.Text.Base64
import Gatekeeper.Text.Blank
import Gatekeeper.Text.LetterCase
import Gatekeeper.Text.LetterCase.Table
import Gatekeeper.Text.Quoted
import Gatekeeper.Text.Quoted.Table
import Gatekeeper.Proofs.Access.FirstMatch
import Gatekeeper.Proofs.Access.Isolation
import Gatekeeper.Proofs.Access.Restriction
import Gatekeeper.Proofs.Access.Explanation
import Gatekeeper.Proofs.Admin.Roster
import Gatekeeper.Proofs.Hub.Told
import Gatekeeper.Proofs.Hub.Notified
import Gatekeeper.Proofs.Hub.Undisturbed
import Gatekeeper.Proofs.Hub.Within
import Gatekeeper.Proofs.Hub.Bystanders
import Gatekeeper.Proofs.Admin.Atomic
import Gatekeeper.Proofs.Cache.Reads
import Gatekeeper.Proofs.Admin.Agreement
import Gatekeeper.Proofs.Cache.Unread
import Gatekeeper.Proofs.Cache.Phases
import Gatekeeper.Proofs.Cache.Restart
import Gatekeeper.Proofs.Store.Separator
import Gatekeeper.Proofs.Cache.Hearing
import Gatekeeper.Proofs.Cache.Overlooked
import Gatekeeper.Proofs.Access.Header
import Gatekeeper.Proofs.Credential.Shape
import Gatekeeper.Proofs.Json.Reads
import Gatekeeper.Proofs.Json.Written
import Gatekeeper.Proofs.Record.Json
import Gatekeeper.Proofs.Credential.UserForm
import Gatekeeper.Proofs.Json.ByName
import Gatekeeper.Proofs.Settings.Loaders
import Gatekeeper.Proofs.Settings.Path
import Gatekeeper.Proofs.Settings.Reload
