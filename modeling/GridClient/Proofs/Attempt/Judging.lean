import GridClient.Attempt.Basic

/-!
# Judging a response

The status of a response comes first. If it asks for another attempt or reports an error, the
body is not decoded. Otherwise the response comes to what its body says, unless that breaks the
protocol and so speaks against the channel.
-/

namespace GridClient

namespace Outcome

variable {α : Type}

/-- What an outcome that settles the matter comes to. -/
def result? : Outcome α → Option (Except ClientError α)
  | completed a => some (.ok a)
  | failed e => some (.error e)
  | _ => none

def ofResult : Except ClientError α → Outcome α
  | .ok a => completed a
  | .error e => failed e

/-- The outcome of a judgement. -/
def ofJudged : Except ClientError (Outcome α) → Outcome α
  | .ok o => o
  | .error e => failed e

/-- The judgement on a result: an error that poisons the channel is kept apart. -/
def judged : Except ClientError α → Except ClientError (Outcome α)
  | .ok a => .ok (completed a)
  | .error e => if e.poisonsChannel then .error e else .ok (failed e)

theorem result?_ofResult (x : Except ClientError α) : (ofResult x).result? = some x := by
  cases x <;> rfl

theorem isRetry_ofResult (x : Except ClientError α) : (ofResult x).isRetry = false := by
  cases x <;> rfl

theorem judged_of_poisonsChannel {e : ClientError} (h : e.poisonsChannel = true) :
    judged (.error e : Except ClientError α) = .error e :=
  if_pos h

theorem judged_of_not_poisonsChannel {e : ClientError} (h : e.poisonsChannel = false) :
    judged (.error e : Except ClientError α) = .ok (failed e) :=
  if_neg (Bool.eq_false_iff.1 h)

theorem ofJudged_judged (x : Except ClientError α) : ofJudged (judged x) = ofResult x := by
  cases x with
  | ok a => rfl
  | error e =>
      cases h : e.poisonsChannel with
      | true => rw [judged_of_poisonsChannel h]; rfl
      | false => rw [judged_of_not_poisonsChannel h]; rfl

/-- An error that poisons the channel is not an outcome. -/
theorem poisonsChannel_of_judged_ok {x : Except ClientError α} {e : ClientError}
    (hjudged : judged x = .ok (failed e)) : e.poisonsChannel = false := by
  cases x with
  | ok a => cases hjudged
  | error e' =>
      cases h : e'.poisonsChannel with
      | true => cases (judged_of_poisonsChannel h).symm.trans hjudged
      | false =>
          cases (judged_of_not_poisonsChannel h).symm.trans hjudged
          exact h

theorem poisonsChannel_of_judged_error {x : Except ClientError α} {e : ClientError}
    (hjudged : judged x = .error e) : e.poisonsChannel = true := by
  cases x with
  | ok a => cases hjudged
  | error e' =>
      cases h : e'.poisonsChannel with
      | true =>
          cases (judged_of_poisonsChannel h).symm.trans hjudged
          exact h
      | false => cases (judged_of_not_poisonsChannel h).symm.trans hjudged

end Outcome

namespace Attempt

variable {op : OpCode} {a : Attempt op} {channel : Channel} {h : ResponseHeader} {body : Bytes}

/-- What a response says if its status is not that of an error. -/
def decode (a : Attempt op) (channel : Channel) (h : ResponseHeader) (body : Bytes) :
    Except ClientError op.Reply :=
  if h.opCode ≠ op.responseCode then .error (.protocol (.responseOpCode h.opCode op))
  else (a.operation.answer h.status channel.version channel.node).value body

/-- Without an error status a response is judged by what it says. -/
theorem judge_eq_judged (hstatus : h.status.isError = false) :
    a.judge channel h body = Outcome.judged (a.decode channel h body) := by
  have htransient : ¬ h.status.isTransient = true := by
    intro htransient
    exact Bool.false_ne_true (hstatus.symm.trans (Status.isError_of_isTransient htransient))
  unfold judge decode
  rw [if_neg htransient, if_neg (Bool.eq_false_iff.1 hstatus)]
  split
  · rfl
  · split
    · next reply hreply =>
      rw [hreply]
      rfl
    · next e he =>
      rw [he]
      rfl

theorem judge_cases (a : Attempt op) (channel : Channel) (h : ResponseHeader) (body : Bytes) :
    (h.status.isTransient = true ∧
        a.judge channel h body = .ok (.retryConnectivity (serverError h.status body))) ∨
      a.judge channel h body = .ok (.failed (serverError h.status body)) ∨
        a.judge channel h body = Outcome.judged (a.decode channel h body) := by
  cases hstatus : h.status.isError with
  | false => exact Or.inr (Or.inr (judge_eq_judged hstatus))
  | true =>
      unfold judge
      rw [if_pos hstatus]
      split
      · next htransient => exact Or.inl ⟨htransient, rfl⟩
      · exact Or.inr (Or.inl rfl)

/-- Without an error status a judgement comes to what the response says. -/
theorem ofJudged_judge (hstatus : h.status.isError = false) :
    Outcome.ofJudged (a.judge channel h body) = .ofResult (a.decode channel h body) := by
  rw [judge_eq_judged hstatus, Outcome.ofJudged_judged]

/-- A judgement asks for a repetition only if the status does. -/
theorem isTransient_of_judge
    (hretry : (Outcome.ofJudged (a.judge channel h body)).isRetry = true) :
    h.status.isTransient = true := by
  rcases a.judge_cases channel h body with ⟨htransient, -⟩ | hjudge | hjudge
  · exact htransient
  · rw [hjudge] at hretry
    cases hretry
  · rw [hjudge, Outcome.ofJudged_judged, Outcome.isRetry_ofResult] at hretry
    cases hretry

theorem poisonsChannel_of_judge_ok {e : ClientError}
    (hjudge : a.judge channel h body = .ok (.failed e)) : e.poisonsChannel = false := by
  rcases a.judge_cases channel h body with ⟨-, heq⟩ | heq | heq
  · cases heq.symm.trans hjudge
  · cases heq.symm.trans hjudge
    rfl
  · exact Outcome.poisonsChannel_of_judged_ok (heq.symm.trans hjudge)

theorem poisonsChannel_of_judge_error {e : ClientError}
    (hjudge : a.judge channel h body = .error e) : e.poisonsChannel = true := by
  rcases a.judge_cases channel h body with ⟨-, heq⟩ | heq | heq
  · cases heq.symm.trans hjudge
  · cases heq.symm.trans hjudge
  · exact Outcome.poisonsChannel_of_judged_error (heq.symm.trans hjudge)

end Attempt
end GridClient
