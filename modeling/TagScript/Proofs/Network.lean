import TagScript.Network

/-!
# Repeated requests

A request goes out again only after a reply that a further try may mend, and only as often as asked
for. What it comes to is decided by the last reply alone. After a thousand tries in vain a pause is
too long to be told.
-/

namespace TagScript

/-- What a network gives back in the end, when no reply is left. -/
def Network.outcome (net : Network) (i : Nat) : Reply :=
  net.replies.getD i (.unreachable "no response left")

def Network.requests (net : Network) : Nat :=
  net.sent.countP fun
    | .request _ _ _ _ => true
    | _ => false

namespace Reply

/-- A reply after which it makes sense to try again. -/
def Retryable : Reply → Prop
  | .unreachable _ => True
  | .broken _ => False
  | .response status _ _ => 500 ≤ status

end Reply

namespace Request

variable {r : Request} {net : Network}

/-- What a request comes to if a reply is the last one. -/
def conclusion (r : Request) : Reply → Except Fault Datum
  | .unreachable message => .error (.http ("Request to " ++ r.url ++ " failed: " ++ message) none)
  | .broken message => .error (.runtime message)
  | .response status body contentType =>
    if 200 ≤ status ∧ status < 300 then r.content status body contentType else .error (r.refusal status body)

theorem verdict_eq (r : Request) (reply : Reply) :
    (reply.Retryable ∧ ∃ fault, r.verdict reply = .again fault ∧ r.conclusion reply = .error fault) ∨
      ¬ reply.Retryable ∧ r.verdict reply = .done (r.conclusion reply) := by
  cases reply with
  | unreachable message => exact .inl ⟨trivial, _, rfl, rfl⟩
  | broken message => exact .inr ⟨id, rfl⟩
  | response status body contentType =>
    simp only [Reply.Retryable, verdict, conclusion, Bool.and_eq_true, decide_eq_true_eq]
    by_cases good : 200 ≤ status ∧ status < 300
    · exact .inr ⟨by omega, by rw [if_pos good, if_pos good]⟩
    · rw [if_neg good, if_neg good]
      by_cases retryable : 500 ≤ status
      · exact .inl ⟨retryable, _, if_pos retryable, rfl⟩
      · exact .inr ⟨retryable, if_neg retryable⟩

/-- Replies were taken up to the last one, which decides; the ones before it were in vain. -/
structure Ends (r : Request) (left : Nat) (net : Network) (tries last : Nat) (result : Except Fault Datum) : Prop where
  few : last ≤ left
  vain : ∀ i < last, (net.outcome i).Retryable
  decided : result = r.conclusion (net.outcome last) ∧ ((net.outcome last).Retryable → last = left) ∨
    result = .error .tooLarge ∧ 1024 ≤ tries + last ∧ (net.outcome last).Retryable ∧ last < left

/-- The network after a request has gone out and been replied to. -/
def asked (r : Request) (net : Network) : Network :=
  (net.note (.request r.method r.url r.options.headers r.body)).take.2

theorem outcome_asked (r : Request) (net : Network) (i : Nat) : (r.asked net).outcome i = net.outcome (i + 1) := by
  rcases net with ⟨_ | ⟨reply, rest⟩, sent⟩ <;> rfl

theorem requests_asked (r : Request) (net : Network) : (r.asked net).requests = net.requests + 1 := by
  rcases net with ⟨_ | ⟨reply, rest⟩, sent⟩ <;> exact List.countP_cons_of_pos rfl

theorem sendAgain_eq (r : Request) (left tries : Nat) (net : Network) : r.sendAgain left tries net =
    match r.verdict (net.outcome 0), left with
    | .done result, _ => (result, r.asked net)
    | .again fault, 0 => (.error fault, r.asked net)
    | .again _, left + 1 =>
      match r.pauseAfter tries with
      | .ok seconds => r.sendAgain left (tries + 1) ((r.asked net).note (.pause seconds))
      | .error fault => (.error fault, r.asked net) := by
  rw [sendAgain.eq_def]
  rcases net with ⟨_ | ⟨reply, rest⟩, sent⟩ <;> rfl

theorem Ends.again {left tries last : Nat} {result : Except Fault Datum} {seconds : Float}
    (ends : r.Ends left ((r.asked net).note (.pause seconds)) (tries + 1) last result)
    (retryable : (net.outcome 0).Retryable) : r.Ends (left + 1) net tries (last + 1) result := by
  have shifted : ∀ i, ((r.asked net).note (.pause seconds)).outcome i = net.outcome (i + 1) := r.outcome_asked net
  obtain ⟨few, vain, decided⟩ := ends
  rw [shifted] at decided
  refine ⟨Nat.succ_le_succ few, fun i before => ?_, decided.imp ?_ ?_⟩
  · cases i with
    | zero => exact retryable
    | succ i => exact shifted i ▸ vain i (Nat.lt_of_succ_lt_succ before)
  · exact fun ⟨same, spent⟩ => ⟨same, fun retryable => congrArg (· + 1) (spent retryable)⟩
  · exact fun ⟨large, long, retryable, more⟩ => ⟨large, by omega, retryable, Nat.succ_lt_succ more⟩

theorem sendAgain_ends (r : Request) : ∀ (left tries : Nat) (net : Network),
    ∃ last, (r.sendAgain left tries net).2.requests = net.requests + last + 1 ∧
      r.Ends left net tries last (r.sendAgain left tries net).1
  | left, tries, net => by
    rw [sendAgain_eq]
    obtain ⟨retryable, fault, again, ended⟩ | ⟨final, done⟩ := r.verdict_eq (net.outcome 0)
    · rw [again]
      cases left with
      | zero => exact ⟨0, r.requests_asked net, Nat.le_refl 0, nofun, .inl ⟨ended.symm, fun _ => rfl⟩⟩
      | succ left =>
        simp only []
        cases paused : r.pauseAfter tries with
        | ok seconds =>
          obtain ⟨last, requests, ends⟩ := sendAgain_ends r left (tries + 1) ((r.asked net).note (.pause seconds))
          have counted : ((r.asked net).note (.pause seconds)).requests = net.requests + 1 := r.requests_asked net
          exact ⟨last + 1, by simp only []; omega, ends.again retryable⟩
        | error fault =>
          unfold pauseAfter at paused
          split at paused <;> cases paused
          rename_i long
          exact ⟨0, r.requests_asked net, Nat.zero_le _, nofun, .inr ⟨rfl, by omega, retryable, Nat.succ_pos left⟩⟩
    · rw [done]
      exact ⟨0, r.requests_asked net, Nat.zero_le _, nofun, .inl ⟨rfl, fun retryable => absurd retryable final⟩⟩

/-- What comes of a request whose last reply this is. A failure says which reply it was, and carries
its status. -/
inductive Decides (r : Request) : Reply → Except Fault Datum → Prop where
  | broken (message : String) : r.Decides (.broken message) (.error (.runtime message))
  | unreachable (message : String) :
    r.Decides (.unreachable message) (.error (.http ("Request to " ++ r.url ++ " failed: " ++ message) none))
  | refused {status : Int} {body : String} {contentType : Option String} (bad : ¬ (200 ≤ status ∧ status < 300)) :
    r.Decides (.response status body contentType) (.error (r.refusal status body))
  | unreadable {status : Int} {body message : String} {contentType : Option String} (good : 200 ≤ status ∧ status < 300)
    (json : (!r.options.raw && isJson contentType) = true) (unread : Json.readBody body = .error message) :
    r.Decides (.response status body contentType)
      (.error (.http ("Invalid JSON from " ++ r.url ++ ": " ++ message) (some status)))
  | returned {status : Int} {body : String} {contentType : Option String} {d : Datum} (good : 200 ≤ status ∧ status < 300)
    (read : if !r.options.raw && isJson contentType then Json.readBody body = .ok d else d = .str body) :
    r.Decides (.response status body contentType) (.ok d)

theorem conclusion_decides (r : Request) (reply : Reply) : r.Decides reply (r.conclusion reply) := by
  cases reply with
  | broken message => exact .broken message
  | unreachable message => exact .unreachable message
  | response status body contentType =>
    simp only [conclusion, content]
    split
    · rename_i good
      split
      · rename_i json
        cases read : Json.readBody body with
        | error e => exact .unreadable good json read
        | ok d => exact .returned good (by rw [if_pos json, read])
      · rename_i plain
        exact .returned good (by rw [if_neg plain])
    · rename_i bad
      exact .refused bad

/-- A request ends with a reply: the ones before it were in vain and fewer than the retries asked
for, and it alone decides what comes of the request: the text or the data of its body if its status
says that it is good, and a failure with its status if not. No request is sent if its body cannot be
or if fewer than no retries are asked for. -/
theorem send_decided_by_last_reply (r : Request) (net : Network) :
    (∃ fault, r.body.bind obstacle? = some fault ∧ r.send net = (.error fault, net)) ∨
    (r.options.retries < 0 ∧ (r.send net).1 = .ok .none ∧ (r.send net).2.requests = net.requests) ∨
    ∃ last : Nat, (r.send net).2.requests = net.requests + last + 1 ∧
      (∀ i < last, (net.outcome i).Retryable ∧ (i : Int) < r.options.retries) ∧
      ((r.send net).1 = .error .tooLarge ∧ 1024 ≤ last ∧ (net.outcome last).Retryable ∧ last < r.options.retries ∨
        ((net.outcome last).Retryable → last = r.options.retries) ∧
          (r.send net).1 = r.conclusion (net.outcome last) ∧ r.Decides (net.outcome last) (r.send net).1) := by
  unfold send
  cases r.body.bind obstacle? with
  | some fault => exact .inl ⟨fault, rfl, rfl⟩
  | none =>
    refine .inr ?_
    simp only []
    split
    · rename_i negative
      exact .inl ⟨negative, rfl, rfl⟩
    · rename_i enough
      obtain ⟨last, requests, ends⟩ :=
        r.sendAgain_ends r.options.retries.toNat 0 (net.note (.opened r.options.timeout))
      refine .inr ⟨last, requests, fun i before => ⟨ends.vain i before, ?_⟩, ?_⟩
      · have few := ends.few
        omega
      obtain ⟨decided, spent⟩ | ⟨large, long, retryable, more⟩ := ends.decided
      · refine .inr ⟨fun retryable => ?_, decided, decided ▸ r.conclusion_decides _⟩
        have spent := spent retryable
        omega
      · exact .inl ⟨large, by omega, retryable, by omega⟩

end Request

end TagScript
