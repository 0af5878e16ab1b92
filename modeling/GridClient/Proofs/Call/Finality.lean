import GridClient.Proofs.Call.Efforts

/-!
# Answers that are final

Most operations must not be repeated once they have been answered. If the response to one of
them does not report an error, its attempt is the last effort of the call, whether or not it
brings a new topology, and the call returns what the response says. The topology is installed
nonetheless.
-/

namespace GridClient
namespace Request

variable {op : OpCode} {σ : Type} {r : Request op} {deadline : Instant}

/-- What a call returns after a response, and what it leaves of the topology that the response
has brought. The response has been read on a channel, with this header and this body. -/
structure Concludes (a : Attempt op) (c e : Client) (channel : Channel) (h : ResponseHeader)
    (body : Bytes) (result : Except ClientError op.Reply) : Prop where
  plain : h.topology = none → result = a.decode channel h body
  /-- A topology that cannot be installed breaks the protocol, and so does the response. -/
  refused : ∀ u refusal, h.topology = some u →
    Topology.ofUpdate u c.registry.intelligence = .error refusal →
      result = .error refusal ∧ refusal.IsFault
  taken : ∀ u t, h.topology = some u → Topology.ofUpdate u c.registry.intelligence = .ok t →
    result = a.decode channel h body
  /-- The topology has taken the place of an older one, at some time between `c` and `e`. -/
  installed : ∀ u t, h.topology = some u → Topology.ofUpdate u c.registry.intelligence = .ok t →
    (∃ d : Client, c.registry.Evolves d.registry ∧
      (d.install a.cache u).2.registry.Evolves e.registry ∧
        (((d.registry.touch a.cache).current a.cache).epoch < t.epoch →
          (d.install a.cache u).2.registry.current a.cache = t)) ∧
      t.epoch ≤ (e.registry.current a.cache).epoch

namespace Concludes

variable {a : Attempt op} {c e : Client} {channel : Channel} {h : ResponseHeader} {body : Bytes}
  {u : TopologyUpdate}

theorem of_plain (htopology : h.topology = none) :
    Concludes a c e channel h body (a.decode channel h body) := by
  constructor
  case plain => exact fun _ => rfl
  case refused => simp [htopology]
  case taken => simp [htopology]
  case installed => simp [htopology]

theorem of_refused {refusal : ClientError} (htopology : h.topology = some u)
    (hu : Topology.ofUpdate u c.registry.intelligence = .error refusal) :
    Concludes a c e channel h body (.error refusal) := by
  constructor
  case plain => simp [htopology]
  case refused =>
    intro v other hv hother
    cases htopology.symm.trans hv
    cases hu.symm.trans hother
    exact ⟨rfl, Topology.onlyFaults_ofUpdate _ _ _ hu⟩
  case taken =>
    intro v t hv ht
    cases htopology.symm.trans hv
    cases hu.symm.trans ht
  case installed =>
    intro v t hv ht
    cases htopology.symm.trans hv
    cases hu.symm.trans ht

theorem of_taken {t : Topology} {served : Exchange.Trace} {answer : Except ClientError Bool}
    (hclean : c.registry.caches.get? [] = none) (hserves : c.Serves served e)
    (hmem : ⟨.install a.cache u, answer⟩ ∈ served) (htopology : h.topology = some u)
    (hu : Topology.ofUpdate u c.registry.intelligence = .ok t) :
    Concludes a c e channel h body (a.decode channel h body) := by
  constructor
  case plain => exact fun _ => rfl
  case refused =>
    intro v refusal hv hrefusal
    cases htopology.symm.trans hv
    cases hu.symm.trans hrefusal
  case taken => exact fun _ _ _ _ => rfl
  case installed =>
    intro v s hv hs
    cases htopology.symm.trans hv
    exact hserves.installed hclean hmem hs

end Concludes

theorem concludes_of_answered {a : Attempt op} {run : Exchange.Trace}
    {stand : Exchange.Stand (Outcome op.Reply)} {served : Exchange.Trace} {c e : Client}
    {channel : Channel} {h : ResponseHeader} {body : Bytes} (hreaction : op.reaction ≠ .retry)
    (hrun : Exchange.Reaches a.run run stand) (hclean : c.registry.caches.get? [] = none)
    (hserves : c.Serves served e) (hserved : ∀ event ∈ run, event ∈ served)
    (hanswered : a.Answered channel run h body) (hstatus : h.status.isError = false) :
    ∃ result, stand = .done (.ofResult result) ∧ Concludes a c e channel h body result := by
  have hcourse := Attempt.course_of_reaches hrun
  rcases hcourse.reading_of_answered (Attempt.answered_dealings.2 hanswered) with
    ⟨id, frame, judged, first, rfl, hreading, hfirst, hheader, hid⟩
  have hdecoded : Outcome.ofJudged (a.judge channel h body) = .ofResult (a.decode channel h body) :=
    Attempt.ofJudged_judge hstatus
  rcases hreading.outcome hheader hid with
    ⟨htopology, rfl⟩ | ⟨u, answer, htopology, hinstall, hjudged⟩
  · exact ⟨_, congrArg _ hdecoded, .of_plain htopology⟩
  · have hmem : ⟨.install a.cache u, answer⟩ ∈ served :=
      hserved _ (Exchange.mem_dealings.1 (hfirst _ hinstall)).1
    -- Whether a topology can be installed is settled at the start: it depends on nothing that
    -- the client learns later.
    cases hu : Topology.ofUpdate u c.registry.intelligence with
    | error refusal =>
        cases hserves.refused hmem hu
        rcases hjudged with ⟨_, ⟨⟩, rfl⟩ | ⟨applied, hanswer, -⟩
        · exact ⟨.error refusal, rfl, .of_refused htopology hu⟩
        · cases hanswer
    | ok t =>
        rcases hserves.taken hmem hu with ⟨applied, rfl⟩
        rcases hjudged with ⟨_, hanswer, -⟩ | ⟨_, -, rfl⟩
        · cases hanswer
        · rw [if_neg hreaction]
          exact ⟨_, congrArg _ hdecoded, .of_taken hclean hserves hmem htopology hu⟩

/-- The response to an operation that is neither a read, nor a bulk operation, nor the fetching
of a page ends the call if it does not report an error, whether or not it brings a topology. -/
theorem answered_final {trace : Call.Trace σ}
    {stand : Call.Stand σ (Except ClientError op.Reply)} {efforts : List Call.Effort}
    {c e : Client} {seeds : List NodeAddress} {intelligence : Intelligence}
    (hop : op ∉ [.get, .getWithMetadata, .containsKey, .getStream, .getAll, .putAll,
      .iterationNext])
    (h : Call.Reaches (r.executeUntil deadline) trace stand)
    (hperforms : Call.Performs trace stand efforts)
    (hstarted : (Registry.ofServers intelligence seeds).Evolves c.registry)
    (hserves : c.Serves (efforts.flatMap Call.Effort.run) e) :
    ∃ bouts : List (Bout op), efforts = bouts.flatMap Bout.efforts ∧ Bouts r deadline bouts stand ∧
      ∀ before b after, bouts = before ++ b :: after → ∀ channel header body,
        b.attempt.Answered channel b.run header body → header.status.isError = false →
          after = [] ∧ b.ping = none ∧ ∃ result, stand = .done result ∧
            Concludes b.attempt c e channel header body result := by
  have hreaction : op.reaction ≠ .retry := by
    cases op <;> simp [OpCode.reaction] at hop ⊢
  have hclean : c.registry.caches.get? [] = none := hstarted.get?_default rfl
  rcases bouts_of_reaches h hperforms with ⟨bouts, rfl, hbouts⟩
  refine ⟨bouts, rfl, hbouts, ?_⟩
  intro before b after hsplit channel header body hanswered hstatus
  have hfrom := (hsplit ▸ hbouts).suffix
  have hserved : ∀ event ∈ b.run,
      event ∈ (bouts.flatMap Bout.efforts).flatMap Call.Effort.run := by
    intro event hevent
    refine List.mem_flatMap.2 ⟨⟨op, b.attempt, b.run, b.stand⟩, ?_, hevent⟩
    exact List.mem_flatMap.2 ⟨b, by simp [hsplit], List.mem_cons_self⟩
  rcases concludes_of_answered hreaction hfrom.reaches.2 hclean hserves hserved hanswered hstatus
    with ⟨result, hstand, hconcludes⟩
  have hlast : ∀ o, b.stand = .done o → o.isRetry = false := by
    intro o ho
    cases hstand.symm.trans ho
    exact Outcome.isRetry_ofResult result
  rcases hfrom.last_of_not_retry hlast with ⟨hafter, hping, hsettles⟩
  rcases hsettles _ hstand with ⟨settled, hsettled, hdone⟩
  cases (Outcome.result?_ofResult result).symm.trans hsettled
  exact ⟨hafter, hping, result, hdone, hconcludes⟩

/-- A write whose answer brings a topology. -/
def movedPut : Request .put where
  cache := { name := "", config := {}, intelligence := .topologyAware }
  operation := .put [1] [2] default
  flags := .none
  topology := .initial .topologyAware [⟨"a", 1⟩]

def movedAttempt : Attempt .put :=
  movedPut.attempt movedPut.topology .any 9

def movedChannel : Channel where
  id := 1
  node := ⟨"a", 1⟩
  version := .v31

def movedUpdate : TopologyUpdate where
  id := 2
  servers := [⟨"b", 1⟩]
  hashFunction := 0
  owners := none

def movedRun : Exchange.Trace :=
  [⟨.messageId, 1⟩, ⟨.acquire .any 9, .ready (.ok movedChannel)⟩, ⟨.enter .channelAcquired, ()⟩,
    ⟨movedAttempt.writeAsk 1 movedChannel, .ready (.ok ())⟩, ⟨.enter .sent, ()⟩,
    ⟨.enter .awaitingResponse, ()⟩,
    ⟨movedAttempt.readAsk movedChannel,
      .ready (.ok [0xA1, 1, 0x02, 0, 1, 2, 1, 1, 0x62, 0, 1])⟩,
    ⟨.install [] movedUpdate, .ok true⟩,
    ⟨.record (.released movedChannel.node.text), ()⟩, ⟨.giveBack movedChannel true, ()⟩,
    ⟨.record (.duration "put" movedChannel.node.text), ()⟩,
    ⟨.record (.success "put" movedChannel.node.text), ()⟩, ⟨.enter .completed, ()⟩]

theorem reaches_movedRun :
    Exchange.Reaches movedAttempt.run movedRun (.done (.completed none)) :=
  .answered _ (.answered _ (.answered _ (.answered _ (.answered _ (.answered _ (.answered _
    (.answered _ (.answered _ (.answered _ (.answered _ (.answered _ (.answered _
      (.done _)))))))))))))

def movedTrace : Call.Trace Unit :=
  [⟨.attempt movedAttempt, .completed none⟩]

def movedEfforts : List Call.Effort :=
  [⟨.put, movedAttempt, movedRun, .done (.completed none)⟩]

def movedStand : Call.Stand Unit (Except ClientError OpCode.put.Reply) :=
  .done (.ok none)

theorem reaches_movedTrace : Call.Reaches (movedPut.executeUntil 9) movedTrace movedStand :=
  .answered _ (.done _)

theorem performs_movedTrace : Call.Performs movedTrace movedStand movedEfforts :=
  .attempt reaches_movedRun (.done _)

/-- A client that has not heard of any topology. -/
def movedClient : Client where
  registry := .ofServers .topologyAware [⟨"a", 1⟩]

theorem serves_movedEfforts :
    ∃ e, movedClient.Serves (movedEfforts.flatMap Call.Effort.run) e :=
  ⟨_, .numbers (.foreign trivial (.foreign trivial (.foreign trivial (.foreign trivial
    (.foreign trivial (.foreign trivial (.installs (.records (.foreign trivial (.records
      (.records (.foreign trivial (.nil _)))))))))))))⟩

theorem answered_movedRun :
    movedAttempt.Answered movedChannel movedRun ⟨1, 2, ⟨0⟩, some movedUpdate⟩ [] :=
  ⟨1, [0xA1, 1, 0x02, 0, 1, 2, 1, 1, 0x62, 0, 1], by simp [movedRun],
    List.mem_cons_of_mem _ List.mem_cons_self, by simp [movedRun], rfl, rfl⟩

theorem answered_final_moved :
    OpCode.put ∉ [.get, .getWithMetadata, .containsKey, .getStream, .getAll, .putAll,
        .iterationNext] ∧
      Call.Reaches (movedPut.executeUntil 9) movedTrace movedStand ∧
        Call.Performs movedTrace movedStand movedEfforts ∧
          movedAttempt.Answered movedChannel movedRun ⟨1, 2, ⟨0⟩, some movedUpdate⟩ [] ∧
            ∃ e, movedClient.Serves (movedEfforts.flatMap Call.Effort.run) e ∧
              ∃ bouts : List (Bout .put), movedEfforts = bouts.flatMap Bout.efforts ∧
                Bouts movedPut 9 bouts movedStand ∧
                  ∀ before (b : Bout .put) after, bouts = before ++ b :: after →
                    ∀ channel header body, b.attempt.Answered channel b.run header body →
                      header.status.isError = false → after = [] ∧ b.ping = none ∧
                        ∃ result, movedStand = .done result ∧
                          Concludes b.attempt movedClient e channel header body result := by
  rcases serves_movedEfforts with ⟨e, hserves⟩
  have hstarted : (Registry.ofServers .topologyAware [⟨"a", 1⟩]).Evolves movedClient.registry :=
    .refl
  exact ⟨by decide, reaches_movedTrace, performs_movedTrace, answered_movedRun, e, hserves,
    answered_final (by decide) reaches_movedTrace performs_movedTrace hstarted hserves⟩

end Request
end GridClient
