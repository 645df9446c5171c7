import BearerAccess.Http.Exchange
set_option autoImplicit false

namespace BearerAccess.Testing

structure ScriptedPeer where
  replies : List Reply
  requests : List HttpRequest

namespace ScriptedPeer

def ofReplies (replies : List Reply) : ScriptedPeer := ⟨replies, []⟩

def exhausted : Reply := .response ⟨404, none, some []⟩

def peer : Peer ScriptedPeer := fun r p =>
  (p.replies.headD exhausted, ⟨p.replies.tail, p.requests ++ [r]⟩)

end ScriptedPeer

end BearerAccess.Testing
