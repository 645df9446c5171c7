import BearerAccess.Http.Exchange
set_option autoImplicit false

namespace BearerAccess.Http

theorem bearerHeader?_eq_some {token header : String} : bearerHeader? token = some header ↔
    (∀ b ∈ bytesOf token, b = 0x09 ∨ 0x20 ≤ b ∧ b ≠ 0x7F) ∧ header = "Bearer " ++ token := by
  simp [bearerHeader?, eq_comm (a := header)]

/-- A request, and those that answers redirect it to, one after the other. -/
inductive Course : HttpRequest → List HttpRequest → Prop where
  | sent (r : HttpRequest) : Course r [r]
  | redirected {r r' : HttpRequest} {a : HttpResponse} {rest : List HttpRequest} :
      next? r a = some r' → Course r' rest → Course r (r :: rest)

theorem next?_reads {r r' : HttpRequest} {a : HttpResponse} (h : next? r a = some r')
    (hr : r.method = .get) : r'.method = .get := by
  simp only [next?] at h
  split at h
  · obtain ⟨target, -, rfl⟩ := Option.map_eq_some_iff.1 h
    simp [redirected, hr]
  · split at h
    · obtain ⟨target, -, rfl⟩ := Option.map_eq_some_iff.1 h
      simp [redirected, hr]
    · cases h

theorem Course.reads {r : HttpRequest} {requests : List HttpRequest} (h : Course r requests)
    (hr : r.method = .get) : ∀ q ∈ requests, q.method = .get := by
  induction h with
  | sent r => simpa using hr
  | redirected hnext _ ih => exact List.forall_mem_cons.2 ⟨hr, ih (next?_reads hnext hr)⟩

theorem turn_eq_again {timeout : Nat} {r r' : HttpRequest} {reply : Reply}
    (h : turn timeout r reply = .again r') : ∃ a, next? r a = some r' := by
  cases reply with
  | closed after => cases h
  | response a =>
    refine ⟨a, ?_⟩
    cases hn : next? r a with
    | none => simp [turn, hn] at h
    | some q =>
      obtain rfl : q = r' := by simpa [turn, hn] using h
      rfl

variable {σ : Type}

/-- A peer, and beside it a record of all the requests that it gets. -/
def overheard (peer : Peer σ) : Peer (σ × List HttpRequest) := fun r s =>
  let (reply, next) := peer r s.1
  (reply, next, s.2 ++ [r])

/-- A computation that asks a peer gives the same with a listener, who hears the requests. -/
def Overheard {α : Type} (log requests : List HttpRequest) (plain : α × σ)
    (heard : α × σ × List HttpRequest) : Prop :=
  heard = (plain.1, plain.2, log ++ requests)

theorem Overheard.eq {α : Type} {log requests : List HttpRequest} {plain : α × σ}
    {heard : α × σ × List HttpRequest} (h : Overheard log requests plain heard) :
    heard = (plain.1, plain.2, log ++ requests) := h

theorem follow_overheard (peer : Peer σ) (timeout more : Nat) (r : HttpRequest) (s : σ)
    (log : List HttpRequest) :
    ∃ requests, Course r requests ∧ requests.length ≤ more + 1 ∧
      Overheard log requests (follow peer timeout more r s)
        (follow (overheard peer) timeout more r (s, log)) := by
  induction more generalizing r s log with
  | zero =>
    refine ⟨[r], .sent r, Nat.le_refl _, ?_⟩
    simp only [Overheard, follow, overheard]
    cases turn timeout r (peer r s).1 <;> rfl
  | succ more ih =>
    cases ht : turn timeout r (peer r s).1 with
    | done result time =>
      refine ⟨[r], .sent r, by simp, ?_⟩
      simp [Overheard, follow, overheard, ht]
    | again r' =>
      obtain ⟨rest, hrest, hlength, hheard⟩ := ih r' (peer r s).2 (log ++ [r])
      obtain ⟨a, hnext⟩ := turn_eq_again ht
      refine ⟨r :: rest, .redirected hnext hrest, Nat.succ_le_succ hlength, ?_⟩
      simpa [Overheard, follow, overheard, ht] using hheard

/-- What is sent for a request: nothing if the peer cannot be reached, and else a course of no more
than ten redirects. -/
inductive Sends (link : Link) (r : HttpRequest) : List HttpRequest → Prop where
  | nothing : link = .down → Sends link r []
  | course {requests : List HttpRequest} : link = .up → Course r requests →
      requests.length ≤ maxRedirects + 1 → Sends link r requests

theorem Sends.ne_nil {r : HttpRequest} {requests : List HttpRequest} (h : Sends .up r requests) :
    requests ≠ [] := by
  cases h with
  | nothing hdown => cases hdown
  | course _ hcourse _ => cases hcourse <;> simp

theorem Sends.reads {link : Link} {r : HttpRequest} {requests : List HttpRequest}
    (h : Sends link r requests) (hr : r.method = .get) : ∀ q ∈ requests, q.method = .get := by
  cases h with
  | nothing => simp
  | course _ hcourse _ => exact hcourse.reads hr

theorem send_overheard (link : Link) (peer : Peer σ) (timeout : Nat) (r : HttpRequest) (s : σ)
    (log : List HttpRequest) :
    ∃ requests, Sends link r requests ∧ Overheard log requests (send link peer timeout r s)
      (send link (overheard peer) timeout r (s, log)) := by
  cases link with
  | down => exact ⟨[], .nothing rfl, by simp [Overheard, send]⟩
  | up =>
    obtain ⟨requests, hcourse, hlength, hheard⟩ :=
      follow_overheard peer timeout maxRedirects r s log
    exact ⟨requests, .course rfl hcourse hlength, hheard⟩

theorem send_eq_ok_up {link : Link} {peer : Peer σ} {timeout time : Nat} {r : HttpRequest}
    {s s' : σ} {a : HttpResponse} (h : send link peer timeout r s = ((.ok a, time), s')) :
    link = .up := by
  cases link with
  | up => rfl
  | down => simp [send] at h

end BearerAccess.Http
