import Gatekeeper.Access.Token
import Gatekeeper.Credential.Basic
import Std.Data.ExtTreeMap

/-!
# Access/TokenIndex — credentials by their tokens

A `TokenIndex` finds a credential by the token of its name and secret.  Of two credentials with one
token the first in the list is found (`TokenIndex.ofList`).  `resolve?` tries `Authorization` values
in order and finds the credential of the first one that carries a known token.
-/

namespace Gatekeeper

open Std (ExtTreeMap)

namespace Credential

/-- The token of a credential. -/
def token (c : Credential) : String := Token.build c.username c.secret

/-- A description of the holder of a credential that keeps secret and token. -/
def holder (c : Credential) : String :=
  "Principal \x7b name: " ++ Text.quoted c.username ++ ", component: "
    ++ Vocabulary.label c.component ++ ", role: " ++ Vocabulary.label c.role ++ ", .. \x7d"

end Credential

/-- Credentials by their tokens. -/
structure TokenIndex where
  /-- The credential of each token. -/
  byToken : ExtTreeMap String Credential

namespace TokenIndex

/-- The index with a credential added, unless its token is taken. -/
def insert (ix : TokenIndex) (c : Credential) : TokenIndex :=
  ⟨ix.byToken.insertIfNew c.token c⟩

/-- The index of the credentials in a list. -/
def ofList (cs : List Credential) : TokenIndex :=
  cs.foldl insert ⟨∅⟩

/-- The credential with this token. -/
def get? (ix : TokenIndex) (token : String) : Option Credential := ix.byToken[token]?

/-- The credential of the first value that carries a known token. -/
def resolve? (ix : TokenIndex) (values : List String) : Option Credential :=
  (values.filterMap Token.ofHeader?).findSome? ix.get?

/-- How many tokens are known. -/
def size (ix : TokenIndex) : Nat := ix.byToken.size

/-- Whether no token is known. -/
def isEmpty (ix : TokenIndex) : Bool := ix.byToken.isEmpty

end TokenIndex

end Gatekeeper
