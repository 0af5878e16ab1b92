import GridClient.Proofs.Call.Hearing
import GridClient.Proofs.Scan.Losses
import GridClient.Proofs.Scan.Plan

/-!
# Interruptions

A pull is interrupted when its answer comes with a change of the topology or its node cannot
be reached. A scan counts the interruptions and starts the count anew with every page that
is not the last one of its iteration. It gives up when the count exceeds the retry limit of
the topology it reads at that moment. What a call can bear is therefore a matter of its
patience, the part of the limit that is left: an interruption uses it up by one, and a page
restores it in full.
-/

namespace GridClient
namespace Scan

/-!
# The outcomes of pulls
-/

def outcome? : Event → Option (Outcome Page)
  | ⟨@Call.Ask.attempt _ .iterationNext _, o⟩ => some o
  | _ => none

/-- How the pulls in a trace have come out, in order. -/
def outcomes (trace : Trace) : List (Outcome Page) :=
  trace.filterMap outcome?

def interrupts : Outcome Page → Bool
  | .retryTopology => true
  | .retryConnectivity _ => true
  | _ => false

/-- Whether a pull has brought a page with which the iteration goes on. -/
def bringsPage : Outcome Page → Bool
  | .completed page => !page.isLast
  | _ => false

def interruptions (os : List (Outcome Page)) : Nat :=
  os.countP interrupts

def pages (os : List (Outcome Page)) : Nat :=
  os.countP bringsPage

@[simp] theorem interruptions_nil : interruptions [] = 0 :=
  rfl

theorem interruptions_cons (o : Outcome Page) (rest : List (Outcome Page)) :
    interruptions (o :: rest) = interruptions rest + if interrupts o then 1 else 0 :=
  List.countP_cons

@[simp] theorem interruptions_append (first last : List (Outcome Page)) :
    interruptions (first ++ last) = interruptions first + interruptions last :=
  List.countP_append

@[simp] theorem pages_nil : pages [] = 0 :=
  rfl

theorem pages_cons (o : Outcome Page) (rest : List (Outcome Page)) :
    pages (o :: rest) = pages rest + if bringsPage o then 1 else 0 :=
  List.countP_cons

@[simp] theorem pages_append (first last : List (Outcome Page)) :
    pages (first ++ last) = pages first + pages last :=
  List.countP_append

@[simp] theorem outcomes_nil : outcomes [] = [] :=
  rfl

@[simp] theorem outcomes_append (first last : Trace) :
    outcomes (first ++ last) = outcomes first ++ outcomes last :=
  List.filterMap_append

@[simp] theorem outcomes_note (s : Scan) (rest : Trace) :
    outcomes (⟨.note s, ()⟩ :: rest) = outcomes rest :=
  rfl

@[simp] theorem outcomes_now (time : Instant) (rest : Trace) :
    outcomes (⟨.now, time⟩ :: rest) = outcomes rest :=
  rfl

@[simp] theorem outcomes_topology (cache : Bytes) (t : Topology) (rest : Trace) :
    outcomes (⟨.topology cache, t⟩ :: rest) = outcomes rest :=
  rfl

@[simp] theorem outcomes_pulling (s : Scan) (t : Topology) (time : Instant) :
    outcomes (s.pulling t time) = [] :=
  rfl

@[simp] theorem outcomes_pulled (s : Scan) (a : ActiveIteration) (t : Topology) (time : Instant)
    (o : Outcome Page) : outcomes (s.pulled a t time o) = [o] :=
  rfl

@[simp] theorem outcomes_losing (s : Scan) (t : Topology) (cause : String) :
    outcomes (s.losing t cause) = [] :=
  rfl

@[simp] theorem outcomes_repeats (s : Scan) (page : Page) : outcomes (s.repeats page) = [] := by
  unfold repeats
  dsimp only
  split <;> rfl

theorem outcomes_of_serves {op : OpCode} (hop : op ≠ .iterationNext) {trace : Trace}
    (h : ∀ e ∈ trace, e.ask.Serves op) : outcomes trace = [] := by
  apply List.filterMap_eq_nil_iff.2
  intro e he
  have hserves := h e he
  rcases e with ⟨ask, answer⟩
  cases ask with
  | @attempt other a =>
      rcases hserves with rfl | rfl
      · cases other <;> first | rfl | exact absurd rfl hop
      · rfl
  | _ => rfl

theorem CarriesOut.outcomes_eq_nil {op : OpCode} (hop : op ≠ .iterationNext)
    {operation : Operation op} {trace : Trace} {stand : Stand (Except ClientError op.Reply)}
    (h : CarriesOut operation trace stand) : outcomes trace = [] :=
  outcomes_of_serves hop h.serves

theorem outcomes_refresh {cache : RemoteCache} {deadline : Instant} {trace : Trace}
    {stand : Stand Unit} (h : Call.Reaches (cache.refresh deadline) trace stand) :
    outcomes trace = [] := by
  have hvain := Call.vain_of_reaches_refresh .iterationEnd (by decide) h
  exact outcomes_of_serves (by decide) fun e he => (hvain.1 e he).serves

@[simp] theorem readings_losing (s : Scan) (t : Topology) (cause : String) :
    Call.readings s.cache.key (s.losing t cause) = [t] := by
  simp [losing]

/-!
# What a limit allows
-/

/-- A scan that has counted so many losses bears the outcomes under a limit, and has counted
so many at the end. -/
inductive Bears (limit : Nat) : Nat → List (Outcome Page) → Nat → Prop where
  | nil (n : Nat) : Bears limit n [] n
  | page {n m : Nat} {o : Outcome Page} {rest : List (Outcome Page)} (ho : bringsPage o = true)
      (h : Bears limit 0 rest m) : Bears limit n (o :: rest) m
  | interrupted {n m : Nat} {o : Outcome Page} {rest : List (Outcome Page)}
      (ho : interrupts o = true) (hn : n + 1 ≤ limit) (h : Bears limit (n + 1) rest m) :
      Bears limit n (o :: rest) m
  | other {n m : Nat} {o : Outcome Page} {rest : List (Outcome Page)}
      (hpage : bringsPage o = false) (ho : interrupts o = false) (h : Bears limit n rest m) :
      Bears limit n (o :: rest) m

theorem not_interrupts_of_bringsPage {o : Outcome Page} (h : bringsPage o = true) :
    interrupts o = false := by
  cases o <;> first | rfl | cases h

theorem not_bringsPage_of_interrupts {o : Outcome Page} (h : interrupts o = true) :
    bringsPage o = false := by
  cases o <;> first | rfl | cases h

namespace Bears

variable {limit n k m : Nat} {first last os : List (Outcome Page)}

theorem of_page {o : Outcome Page} (ho : bringsPage o = true) (hone : os = [o]) :
    Bears limit n os 0 := by
  rw [hone]
  exact .page ho (.nil 0)

theorem of_interruption {o : Outcome Page} (ho : interrupts o = true) (hone : os = [o])
    (hn : n + 1 ≤ limit) : Bears limit n os (n + 1) := by
  rw [hone]
  exact .interrupted ho hn (.nil _)

theorem of_other {o : Outcome Page} (hpage : bringsPage o = false) (ho : interrupts o = false)
    (hone : os = [o]) : Bears limit n os n := by
  rw [hone]
  exact .other hpage ho (.nil n)

theorem append (h : Bears limit n first k) (h' : Bears limit k last m) :
    Bears limit n (first ++ last) m := by
  induction h with
  | nil => exact h'
  | page ho _ ih => exact .page ho (ih h')
  | interrupted ho hn _ ih => exact .interrupted ho hn (ih h')
  | other hpage ho _ ih => exact .other hpage ho (ih h')

theorem split (h : Bears limit n (first ++ last) m) :
    ∃ k, Bears limit n first k ∧ Bears limit k last m := by
  induction first generalizing n with
  | nil => exact ⟨n, .nil n, h⟩
  | cons o rest ih =>
      cases h with
      | page ho h =>
          rcases ih h with ⟨k, hfirst, hlast⟩
          exact ⟨k, .page ho hfirst, hlast⟩
      | interrupted ho hn h =>
          rcases ih h with ⟨k, hfirst, hlast⟩
          exact ⟨k, .interrupted ho hn hfirst, hlast⟩
      | other hpage ho h =>
          rcases ih h with ⟨k, hfirst, hlast⟩
          exact ⟨k, .other hpage ho hfirst, hlast⟩

/-- Interruptions use up patience; a page restores at most the whole of it. -/
theorem interruptions_add_patience_le (h : Bears limit n os m) :
    interruptions os + (limit - m) ≤ limit * pages os + (limit - n) := by
  induction h with
  | nil n => simp
  | page ho _ ih =>
      simp only [interruptions_cons, pages_cons, ho, not_interrupts_of_bringsPage ho, Nat.mul_add,
        if_true, Bool.false_eq_true, if_false]
      omega
  | interrupted ho hn _ ih =>
      simp only [interruptions_cons, pages_cons, ho, not_bringsPage_of_interrupts ho, if_true,
        Bool.false_eq_true, if_false, Nat.add_zero]
      omega
  | other hpage ho _ ih =>
      simpa only [interruptions_cons, pages_cons, ho, hpage, Bool.false_eq_true, if_false,
        Nat.add_zero] using ih

theorem interruptions_le (h : Bears limit n os m) :
    interruptions os ≤ limit * (pages os + 1) := by
  have hpatience := h.interruptions_add_patience_le
  rw [Nat.mul_add]
  omega

/-- Without a page in between there are no more interruptions than the limit says. -/
theorem interruptions_le_within {middle : List (Outcome Page)}
    (h : Bears limit n (first ++ middle ++ last) m) (hpages : pages middle = 0) :
    interruptions middle ≤ limit := by
  rcases h.split with ⟨k, hstart, -⟩
  rcases hstart.split with ⟨j, -, hmiddle⟩
  have hle := hmiddle.interruptions_le
  rwa [hpages, Nat.zero_add, Nat.mul_one] at hle

end Bears

/-!
# What turns bear
-/

/-- What a turn of a scan does to its count of losses, under a limit. -/
inductive Endures (limit : Nat) (s : Scan) (trace : Trace) : Stand Turn → Prop where
  | goesOn {t : Scan} (hcache : t.cache = s.cache)
      (h : Bears limit s.failures (outcomes trace) t.failures) :
      Endures limit s trace (.done (.again t))
  | closes {stand : Stand Turn} {m : Nat} (hstand : ∀ t, stand ≠ .done (.again t))
      (h : Bears limit s.failures (outcomes trace) m) : Endures limit s trace stand
  | givesUp {o : Outcome Page} {t u : Scan} {cause : String} (ho : interrupts o = true)
      (houtcomes : outcomes trace = [o]) :
      Endures limit s trace (.done (.result (t.givingUp cause) u))

namespace Endures

variable {limit : Nat} {s : Scan} {trace : Trace} {stand : Stand Turn}

/-- What comes before without a pull does not matter. -/
theorem append (h : Endures limit s trace stand) {t : Scan} {first : Trace}
    (hfirst : outcomes first = []) (hcache : s.cache = t.cache)
    (hfailures : s.failures = t.failures) : Endures limit t (first ++ trace) stand := by
  have houtcomes : outcomes (first ++ trace) = outcomes trace := by
    rw [outcomes_append, hfirst, List.nil_append]
  cases h with
  | goesOn hsame h => exact .goesOn (hsame.trans hcache) (houtcomes ▸ hfailures ▸ h)
  | closes hstand h => exact .closes hstand (houtcomes ▸ hfailures ▸ h)
  | givesUp ho hone => exact .givesUp ho (houtcomes.trans hone)

theorem of_silent (hstand : ∀ t, stand ≠ .done (.again t)) (h : outcomes trace = []) :
    Endures limit s trace stand := by
  apply Endures.closes hstand
  rw [h]
  exact .nil _

end Endures

theorem Pulls.endures {limit : Nat} {s : Scan} {a : ActiveIteration} {trace : Trace}
    {stand : Stand Turn} (h : Pulls s a trace stand)
    (hlimit : ∀ t ∈ Call.readings s.cache.key trace, s.cache.retryLimit t ≤ limit) :
    Endures limit s trace stand := by
  cases h with
  | asking t time => exact .of_silent (by simp) (outcomes_pulling s t time)
  | @page t time page hpage =>
      have hbears : Bears limit s.failures
          (outcomes (s.pulled a t time (.completed page) ++ s.repeats page)) 0 :=
        .of_page (o := .completed page) (by simp [bringsPage, hpage]) (by simp)
      unfold paged
      dsimp only
      split
      · exact .goesOn rfl hbears
      · exact .closes (by simp) hbears
  | @drained t time page trace stand hpage hend =>
      have hbears : Bears limit s.failures (outcomes (s.pulled a t time (.completed page) ++
          ⟨.note (s.drained a page), ()⟩ :: trace)) s.failures :=
        .of_other (o := .completed page) (by simp [bringsPage, hpage]) rfl
          (by simp [hend.outcomes_eq_nil])
      cases stand with
      | done r =>
          have hsame := drained_eq s a page
          refine .goesOn ?_ ?_
          · rw [hsame]
            rfl
          · rw [hsame]
            exact hbears
      | waiting q => exact .closes (by simp) hbears
  | changedTooOften htoo => exact .givesUp (o := .retryTopology) rfl (by simp)
  | @leaving t u time trace q hwithin hend =>
      have hn := Nat.le_trans hwithin (hlimit u (by simp))
      exact .closes (by simp)
        (.of_interruption (o := .retryTopology) rfl (by simp [hend.outcomes_eq_nil]) hn)
  | @changed t u v time trace r hwithin hend =>
      have hn := Nat.le_trans hwithin (hlimit u (by simp))
      have hplans := plans_replan s.interrupted.idle v
      refine .goesOn hplans.cache_eq ?_
      rw [hplans.failures_eq]
      exact .of_interruption (o := .retryTopology) rfl (by simp [hend.outcomes_eq_nil]) hn
  | @lostTooOften t u time e htoo => exact .givesUp (o := .retryConnectivity e) rfl (by simp)
  | @refreshing t u time later e trace q hwithin hping =>
      have hn := Nat.le_trans hwithin (hlimit u (by simp))
      exact .closes (by simp)
        (.of_interruption (o := .retryConnectivity e) rfl (by simp [outcomes_refresh hping]) hn)
  | @lost t u v time later e trace hwithin hping =>
      have hn := Nat.le_trans hwithin (hlimit u (by simp))
      have hplans := plans_replan s.interrupted.idle v
      refine .goesOn hplans.cache_eq ?_
      rw [hplans.failures_eq]
      exact .of_interruption (o := .retryConnectivity e) rfl (by simp [outcomes_refresh hping]) hn
  | @failed t time e trace stand hend =>
      have hbears : Bears limit s.failures
          (outcomes (s.pulled a t time (.failed e) ++ ⟨.note s.idle, ()⟩ :: trace)) s.failures :=
        .of_other (o := .failed e) rfl rfl (by simp [hend.outcomes_eq_nil])
      cases stand with
      | done r => exact .closes (fun t h => by cases h) hbears
      | waiting q => exact .closes (fun t h => by cases h) hbears

theorem Proceeds.endures {limit : Nat} {s : Scan} {trace : Trace} {stand : Stand Turn}
    (h : Proceeds s trace stand)
    (hlimit : ∀ t ∈ Call.readings s.cache.key trace, s.cache.retryLimit t ≤ limit) :
    Endures limit s trace stand := by
  cases h with
  | pulls ha h => exact h.endures hlimit
  | exhausted ha hplan => exact .of_silent (by simp) rfl
  | starting ha hplan hstart =>
      exact .of_silent (by simp) (hstart.outcomes_eq_nil (by decide))
  | refused ha hplan hstart =>
      exact .of_silent (by simp) (hstart.outcomes_eq_nil (by decide))
  | @started g rest trace last stand cursor ha hplan hstart h =>
      have hfirst : outcomes (⟨.note (s.planning rest), ()⟩ :: trace) = [] :=
        hstart.outcomes_eq_nil (by decide)
      refine (h.endures fun t ht => hlimit t ?_).append hfirst rfl rfl
      rw [← List.cons_append, Call.readings_append]
      exact List.mem_append_right _ ht

theorem Takes.endures {limit : Nat} {s : Scan} {trace : Trace} {stand : Stand Turn}
    (h : Takes s trace stand)
    (hlimit : ∀ t ∈ Call.readings s.cache.key trace, s.cache.retryLimit t ≤ limit) :
    Endures limit s trace stand := by
  cases h with
  | ended hstate => exact .of_silent (by simp) rfl
  | running hstate h => exact h.endures hlimit
  | @first t trace stand hstate h =>
      have hplans := plans_replan s t
      have hfirst : outcomes [⟨.topology s.cache.key, t⟩] = [] := rfl
      have hcache : (s.launched t).cache = s.cache := hplans.cache_eq
      refine (h.endures fun u hu => ?_).append hfirst hcache hplans.failures_eq
      rw [hcache] at hu ⊢
      exact hlimit u (by simp [hu])

/-!
# What calls bear
-/

theorem Turns.endures {limit : Nat} {s t : Scan} {trace : Trace} (h : Turns s trace t)
    (hlimit : ∀ u ∈ Call.readings s.cache.key trace, s.cache.retryLimit u ≤ limit) :
    t.cache = s.cache ∧ Bears limit s.failures (outcomes trace) t.failures := by
  induction h with
  | none s => exact ⟨rfl, .nil _⟩
  | @again s t u first rest hturn hrest ih =>
      rw [Call.readings_append, List.forall_mem_append] at hlimit
      have hfirst := hturn.endures hlimit.1
      generalize hstand : (.done (.again t) : Stand Turn) = stand at hfirst
      cases hfirst with
      | goesOn hcache h =>
          cases hstand
          have hlater := hlimit.2
          rw [← hcache] at hlater
          rcases ih hlater with ⟨hsame, hbears⟩
          rw [outcomes_append]
          exact ⟨hsame.trans hcache, h.append hbears⟩
      | closes hopen h => exact absurd hstand.symm (hopen t)
      | givesUp ho hone => cases hstand

/-- How a call for a page has borne the outcomes of its pulls: all of them, or all but the
last one, which has made it give up. -/
inductive Withstands (limit n : Nat) (trace : Trace) : Stand (Option PageResult × Scan) → Prop
  where
  | bears {stand : Stand (Option PageResult × Scan)} {m : Nat}
      (h : Bears limit n (outcomes trace) m) : Withstands limit n trace stand
  | givesUp {os : List (Outcome Page)} {o : Outcome Page} {m : Nat} {t u : Scan} {cause : String}
      (houtcomes : outcomes trace = os ++ [o]) (ho : interrupts o = true)
      (h : Bears limit n os m) : Withstands limit n trace (.done (some (t.givingUp cause), u))

theorem withstands_of_reaches {limit turns : Nat} {s : Scan} {trace : Trace}
    {stand : Stand (Option PageResult × Scan)} (h : Call.Reaches (nextPage turns s) trace stand)
    (hlimit : ∀ t ∈ Call.readings s.cache.key trace, s.cache.retryLimit t ≤ limit) :
    Withstands limit s.failures trace stand := by
  rcases turns_of_reaches h with ⟨first, t, last, rfl, hturns, hcloses⟩
  rw [Call.readings_append, List.forall_mem_append] at hlimit
  rcases hturns.endures hlimit.1 with ⟨hcache, hbears⟩
  have hlater := hlimit.2
  rw [← hcache] at hlater
  have hborne {m : Nat} (h : Bears limit t.failures (outcomes last) m) :
      Bears limit s.failures (outcomes (first ++ last)) m := by
    rw [outcomes_append]
    exact hbears.append h
  cases hcloses with
  | @result last r u hturn =>
      have hlast := hturn.endures hlater
      generalize hstand : (.done (.result r u) : Stand Turn) = stand at hlast
      cases hlast with
      | goesOn hcache h => cases hstand
      | closes hopen h => exact .bears (hborne h)
      | givesUp ho hone =>
          cases hstand
          exact .givesUp (by rw [outcomes_append, hone]) ho hbears
  | @waiting last q hturn =>
      have hlast := hturn.endures hlater
      generalize hstand : (.waiting q : Stand Turn) = stand at hlast
      cases hlast with
      | goesOn hcache h => cases hstand
      | closes hopen h => exact .bears (hborne h)
      | givesUp ho hone => cases hstand
  | cutOff => exact .bears (hborne (.nil _))

/-- A call that is interrupted more often than the limit without a page in between has
returned an error at the interruption that was too much. -/
def Stops (limit : Nat) (trace : Trace) (stand : Stand (Option PageResult × Scan)) : Prop :=
  ∀ before middle after : List (Outcome Page),
    outcomes trace = before ++ middle ++ after → pages middle = 0 →
      limit < interruptions middle →
        after = [] ∧ interruptions middle = limit + 1 ∧
          ∃ (n : Nat) (cause : String) (s : Scan), stand =
            .done (some (.error (.topologyUnstable n s!"scan interrupted by {cause}")), s)

namespace Withstands

variable {limit n : Nat} {trace : Trace} {stand : Stand (Option PageResult × Scan)}

theorem interruptions_le (h : Withstands limit n trace stand) :
    interruptions (outcomes trace) ≤ limit * (pages (outcomes trace) + 1) + 1 := by
  cases h with
  | bears h => exact Nat.le_succ_of_le h.interruptions_le
  | @givesUp os o m t u cause houtcomes ho h =>
      have hone : pages [o] = 0 := by
        rw [pages_cons, not_bringsPage_of_interrupts ho]
        rfl
      rw [houtcomes, interruptions_append, pages_append, hone]
      exact Nat.add_le_add h.interruptions_le List.countP_le_length

theorem stops (h : Withstands limit n trace stand) : Stops limit trace stand := by
  intro before middle after houtcomes hpages hmany
  cases h with
  | bears h =>
      rw [houtcomes] at h
      exact absurd (h.interruptions_le_within hpages) (Nat.not_le.2 hmany)
  | @givesUp os o m t u cause hlast ho h =>
      rw [houtcomes] at hlast
      rcases List.eq_nil_or_concat after with rfl | ⟨rest, x, rfl⟩
      · rw [List.append_nil] at hlast
        rcases List.eq_nil_or_concat middle with rfl | ⟨rest, x, rfl⟩
        · exact absurd hmany (Nat.not_lt_zero limit)
        · rw [List.concat_eq_append] at hlast hpages hmany ⊢
          rw [← List.append_assoc] at hlast
          rcases List.append_inj' hlast rfl with ⟨rfl, hx⟩
          cases hx
          have hone : interruptions [o] = 1 := by
            rw [interruptions_cons, ho]
            rfl
          rw [pages_append] at hpages
          rw [← List.append_nil (before ++ rest)] at h
          have hle := h.interruptions_le_within (Nat.eq_zero_of_add_eq_zero_right hpages)
          rw [interruptions_append, hone] at hmany ⊢
          exact ⟨rfl, by omega, _, cause, u, rfl⟩
      · rw [List.concat_eq_append, ← List.append_assoc] at hlast
        rcases List.append_inj' hlast rfl with ⟨rfl, -⟩
        exact absurd (h.interruptions_le_within hpages) (Nat.not_le.2 hmany)

end Withstands

end Scan
end GridClient
