import GridClient.Proofs.Call.Efforts

/-!
# Conditional writes that are sent again

A conditional write that has been written may have taken effect, unless the node has answered
that another attempt may succeed. Its answer is then final. If its response is lost on the way,
however, the write is sent again, and what the caller hears is what became of a later attempt.
-/

namespace GridClient

/-- The write takes effect only under a condition on what is stored. -/
def Operation.IsConditional : {op : OpCode} → Operation op → Prop
  | _, putIfAbsent _ _ _ => True
  | _, replace _ _ _ => True
  | _, replaceIfUnmodified _ _ _ _ => True
  | _, remove _ => True
  | _, removeIfUnmodified _ _ => True
  | _, putStream _ _ condition _ _ => condition ≠ .always
  | _, _ => False

/-- The answer to a conditional write stands also if it brings a new topology. -/
theorem Operation.IsConditional.reaction_ne {op : OpCode} {operation : Operation op}
    (h : operation.IsConditional) : op.reaction ≠ .retry := by
  cases operation with
  | putIfAbsent key value expiration => decide
  | replace key value expiration => decide
  | replaceIfUnmodified key value version expiration => decide
  | remove key => decide
  | removeIfUnmodified key version => decide
  | putStream key value condition expiration chunk => decide
  | _ => exact h.elim

namespace Request

variable {op : OpCode} {σ : Type} {r : Request op} {deadline : Instant}

namespace Bout

/-- The frame has been written, and the node has not asked for another attempt. -/
def MayHaveTakenEffect (b : Bout op) : Prop :=
  Attempt.Written b.run ∧ ¬ b.attempt.Deferred b.run

/-- Some attempt has set about to write its frame. -/
def SendAgain (bouts : List (Bout op)) : Prop :=
  ∃ b ∈ bouts, Exchange.frames b.run b.stand ≠ []

theorem mayHaveTakenEffect_of_lost {b : Bout op}
    (hrun : Exchange.Reaches b.attempt.run b.run b.stand) (hlost : Attempt.Lost b.run) :
    b.MayHaveTakenEffect := by
  have hcourse := Attempt.course_of_reaches hrun
  have hdealings := hcourse.of_lost (Attempt.lost_dealings.2 hlost)
  rwa [Attempt.written_dealings, Attempt.deferred_dealings] at hdealings

theorem isRetry_eq_false {b : Bout op} {o : Outcome op.Reply} (hreaction : op.reaction ≠ .retry)
    (hrun : Exchange.Reaches b.attempt.run b.run b.stand) (heffect : b.MayHaveTakenEffect)
    (hlost : ¬ Attempt.Lost b.run) (ho : b.stand = .done o) : o.isRetry = false := by
  rw [ho] at hrun
  have hcourse := Attempt.course_of_reaches hrun
  rw [← Bool.not_eq_true]
  intro hretry
  rcases hcourse.of_written hreaction (Attempt.written_dealings.2 heffect.1) hretry with h | h
  · exact hlost (Attempt.lost_dealings.1 h)
  · exact heffect.2 (Attempt.deferred_dealings.1 h)

end Bout

/-- If a conditional write may have taken effect and its response has not been lost, its attempt
is the last one and the call returns its outcome. It is sent again after it may have taken
effect exactly if it is sent again after a response has been lost. -/
theorem resent_iff_lost {trace : Call.Trace σ}
    {stand : Call.Stand σ (Except ClientError op.Reply)} {efforts : List Call.Effort}
    (hop : r.operation.IsConditional) (h : Call.Reaches (r.executeUntil deadline) trace stand)
    (hperforms : Call.Performs trace stand efforts) :
    ∃ bouts : List (Bout op), efforts = bouts.flatMap Bout.efforts ∧ Bouts r deadline bouts stand ∧
      (∀ before b after, bouts = before ++ b :: after → b.MayHaveTakenEffect →
        ¬ Attempt.Lost b.run → after = [] ∧ b.ping = none ∧
          ∀ o, b.stand = .done o → ∃ result, o.result? = some result ∧ stand = .done result) ∧
        ((∃ before b after, bouts = before ++ b :: after ∧ b.MayHaveTakenEffect ∧
            Bout.SendAgain after) ↔
          ∃ before b after, bouts = before ++ b :: after ∧ Attempt.Lost b.run ∧
            Bout.SendAgain after) := by
  rcases bouts_of_reaches h hperforms with ⟨bouts, hefforts, hbouts⟩
  have hfinal : ∀ before b after, bouts = before ++ b :: after → b.MayHaveTakenEffect →
      ¬ Attempt.Lost b.run → after = [] ∧ b.ping = none ∧
        ∀ o, b.stand = .done o → ∃ result, o.result? = some result ∧ stand = .done result := by
    intro before b after hsplit heffect hlost
    have hfrom := (hsplit ▸ hbouts).suffix
    exact hfrom.last_of_not_retry fun o ho =>
      Bout.isRetry_eq_false hop.reaction_ne hfrom.reaches.2 heffect hlost ho
  refine ⟨bouts, hefforts, hbouts, hfinal, ?_, ?_⟩
  · intro hagain
    rcases hagain with ⟨before, b, after, hsplit, heffect, hsent⟩
    refine ⟨before, b, after, hsplit, ?_, hsent⟩
    apply Classical.byContradiction
    intro hlost
    rcases hfinal before b after hsplit heffect hlost with ⟨rfl, -⟩
    rcases hsent with ⟨x, hx, -⟩
    cases hx
  · intro hagain
    rcases hagain with ⟨before, b, after, hsplit, hlost, hsent⟩
    have hfrom := (hsplit ▸ hbouts).suffix
    exact ⟨before, b, after, hsplit, Bout.mayHaveTakenEffect_of_lost hfrom.reaches.2 hlost, hsent⟩

/-- A write that takes effect if the key is absent. It may be attempted twice. -/
def absentPut : Request .putIfAbsent where
  cache := { name := "", config := { maxRetries := 2 }, intelligence := .basic }
  operation := .putIfAbsent [1] [2] default
  flags := .none
  topology := .initial .basic [⟨"a", 1⟩]

def absentAttempt : Attempt .putIfAbsent :=
  absentPut.attempt absentPut.topology .any 9

def absentPing : Attempt .ping :=
  absentPut.cache.refreshPing absentPut.topology 9

def absentChannel : Channel where
  id := 1
  node := ⟨"a", 1⟩
  version := .v31

/-- The response is lost; the ping that follows gets no channel; the next response is lost. -/
def absentTrace : Call.Trace Unit :=
  [⟨.attempt absentAttempt, .retryConnectivity (.transport "gone")⟩,
    ⟨.record (.retry "put_if_absent" "connectivity"), ()⟩, ⟨.topology [], absentPut.topology⟩,
    ⟨.attempt absentPing, .retryConnectivity (.connection "refused")⟩,
    ⟨.topology [], absentPut.topology⟩,
    ⟨.attempt absentAttempt, .retryConnectivity (.transport "gone")⟩,
    ⟨.record (.retry "put_if_absent" "connectivity"), ()⟩, ⟨.topology [], absentPut.topology⟩]

def absentBouts : List (Bout .putIfAbsent) :=
  [⟨absentAttempt, absentAttempt.lostRun 1 absentChannel "gone",
      .done (.retryConnectivity (.transport "gone")),
      some ⟨_, absentPing,
        [⟨.messageId, 2⟩, ⟨.acquire .any 9, .ready (.error (.connection "refused"))⟩,
          ⟨.enter .retryTopology, ()⟩],
        .done (.retryConnectivity (.connection "refused"))⟩⟩,
    ⟨absentAttempt, absentAttempt.lostRun 3 absentChannel "gone",
      .done (.retryConnectivity (.transport "gone")), none⟩]

def absentEfforts : List Call.Effort :=
  absentBouts.flatMap Bout.efforts

def absentStand : Call.Stand Unit (Except ClientError WriteResult) :=
  .done (.error (.topologyUnstable 2 (ClientError.transport "gone").message))

theorem reaches_absentTrace :
    Call.Reaches (absentPut.executeUntil 9) absentTrace absentStand :=
  .answered _ (.answered _ (.answered _ (.answered _ (.answered _ (.answered _ (.answered _
    (.answered _ (.done _))))))))

theorem performs_absentTrace : Call.Performs absentTrace absentStand absentEfforts :=
  .attempt (Attempt.reaches_lostRun _ _ _ _) (.atOnce id (.atOnce id
    (.attempt (Attempt.reaches_unacquired absentPing 2 rfl) (.atOnce id
      (.attempt (Attempt.reaches_lostRun _ _ _ _) (.atOnce id (.atOnce id (.done _))))))))

/-- The write is sent again after it may have taken effect. -/
theorem sendAgain_absentBouts :
    ∃ before b after, absentBouts = before ++ b :: after ∧ b.MayHaveTakenEffect ∧
      Bout.SendAgain after := by
  refine ⟨[], _, _, rfl, ?_, _, List.mem_cons_self, nofun⟩
  exact Bout.mayHaveTakenEffect_of_lost (Attempt.reaches_lostRun _ _ _ _)
    ⟨(Guard.fresh absentChannel).sent, .upTo absentAttempt.deadline, "gone",
      by simp [Attempt.lostRun]⟩

theorem resent_iff_lost_absent :
    absentPut.operation.IsConditional ∧
      Call.Reaches (absentPut.executeUntil 9) absentTrace absentStand ∧
        Call.Performs absentTrace absentStand absentEfforts ∧
          (∃ before b after, absentBouts = before ++ b :: after ∧ b.MayHaveTakenEffect ∧
            Bout.SendAgain after) ∧
            ∃ bouts : List (Bout .putIfAbsent), absentEfforts = bouts.flatMap Bout.efforts ∧
              Bouts absentPut 9 bouts absentStand ∧
                (∀ before b after, bouts = before ++ b :: after → b.MayHaveTakenEffect →
                  ¬ Attempt.Lost b.run → after = [] ∧ b.ping = none ∧
                    ∀ o, b.stand = .done o →
                      ∃ result, o.result? = some result ∧ absentStand = .done result) ∧
                  ((∃ before b after, bouts = before ++ b :: after ∧ b.MayHaveTakenEffect ∧
                      Bout.SendAgain after) ↔
                    ∃ before b after, bouts = before ++ b :: after ∧ Attempt.Lost b.run ∧
                      Bout.SendAgain after) :=
  ⟨trivial, reaches_absentTrace, performs_absentTrace, sendAgain_absentBouts,
    resent_iff_lost trivial reaches_absentTrace performs_absentTrace⟩

end Request
end GridClient
