import BearerAccess.Http.Exchange
/-!
A peer whose replies come one at a time. A computation that asks a peer is run with the replies that
have come so far; the first request beyond them stays open, and once its reply has come the
computation is run again. As it is the same each time, it asks again what has been answered.
-/
set_option autoImplicit false

namespace BearerAccess

structure Dialogue where
  replies : List Reply
  open? : Option HttpRequest
  deriving DecidableEq, Repr

namespace Dialogue

def ofReplies (replies : List Reply) : Dialogue := ⟨replies, none⟩

/-- An open request, and any after it, gets no answer for now. -/
def peer : Peer Dialogue := fun r d =>
  match d.replies with
  | reply :: rest => (reply, { d with replies := rest })
  | [] => (.closed 0, { d with open? := some (d.open?.getD r) })

end Dialogue

end BearerAccess
