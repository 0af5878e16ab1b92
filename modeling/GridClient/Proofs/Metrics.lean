import GridClient.Metrics
import GridClient.Protocol.OpCode
import Mathlib.Data.List.Basic

/-!
# Totals

The tally of a client goes by the texts of its series. The counters of operations, channels,
retries and topology updates can be told apart by their texts, and each measurement adds one to
those that it concerns. So what such a counter has come to is how many times its measurement has
been recorded, in whatever order.
-/

namespace GridClient
namespace Metrics

/-!
# Texts of series
-/

/-- Two texts that are divided at the first character of a kind have the same parts. -/
theorem append_cons_inj {c : Char} {x y u v : List Char} (hx : c ∉ x) (hy : c ∉ y)
    (h : x ++ c :: u = y ++ c :: v) : x = y ∧ u = v := by
  induction x generalizing y with
  | nil =>
      cases y with
      | nil => exact ⟨rfl, (List.cons.inj h).2⟩
      | cons d y => exact absurd ((List.cons.inj h).1 ▸ List.mem_cons_self) hy
  | cons d x ih =>
      cases y with
      | nil => exact absurd ((List.cons.inj h).1 ▸ List.mem_cons_self) hx
      | cons e y =>
          rcases List.cons.inj h with ⟨rfl, hrest⟩
          rcases ih (List.not_mem_of_not_mem_cons hx) (List.not_mem_of_not_mem_cons hy) hrest with
            ⟨rfl, hafter⟩
          exact ⟨rfl, hafter⟩

theorem intercalate_pair (x y : List Char) : [','].intercalate [x, y] = x ++ ',' :: y := by
  simp [List.intercalate]

theorem ite_inj {yes no : String} (hne : yes ≠ no) {b b' : Bool}
    (h : (if b then yes else no) = if b' then yes else no) : b = b' := by
  cases b <;> cases b' <;> simp [hne, hne.symm] at h ⊢

/-- A label with its value, as it is shown. -/
def labelled (label : String × String) : List Char :=
  label.1.toList ++ '=' :: label.2.toList

theorem toList_text (s : Series) :
    s.text.toList = s.name.toList ++ '\x7b' ::
      ([','].intercalate (s.labels.map labelled) ++ ['\x7d']) := by
  have hlabelled : labelled = fun label => label.1.toList ++ '=' :: label.2.toList := rfl
  simp [hlabelled, Series.text, String.toList_intercalate, Function.comp_def]

theorem labelled_inj {key value other : String}
    (h : labelled (key, value) = labelled (key, other)) : value = other :=
  String.toList_injective (List.cons.inj (List.append_cancel_left h)).2

/-- Labels with the same keys are told apart by their values, if only the last value may hold
a comma. -/
theorem labels_eq_of_intercalate_eq {labels others : List (String × String)}
    (hkeys : labels.map Prod.fst = others.map Prod.fst)
    (hlabels : ∀ label ∈ labels.dropLast, ',' ∉ labelled label)
    (hothers : ∀ label ∈ others.dropLast, ',' ∉ labelled label)
    (h : [','].intercalate (labels.map labelled) = [','].intercalate (others.map labelled)) :
    labels = others := by
  induction labels generalizing others with
  | nil => exact (List.map_eq_nil_iff.1 hkeys.symm).symm
  | cons label labels ih =>
      rcases others with _ | ⟨other, others⟩
      · cases hkeys
      · rcases label with ⟨key, value⟩
        rcases other with ⟨_, _⟩
        rcases List.cons.inj hkeys with ⟨rfl, hrest⟩
        rcases labels with _ | ⟨second, labels⟩
        · cases List.map_eq_nil_iff.1 hrest.symm
          rw [labelled_inj (List.append_cancel_right h)]
        · rcases others with _ | ⟨next, others⟩
          · cases hrest
          · rcases append_cons_inj (hlabels _ List.mem_cons_self) (hothers _ List.mem_cons_self) h
              with ⟨hfirst, hlater⟩
            rw [labelled_inj hfirst, ih hrest (fun l hl => hlabels l (List.mem_cons_of_mem _ hl))
              (fun l hl => hothers l (List.mem_cons_of_mem _ hl)) hlater]

theorem name_eq_of_text_eq {s t : Series} (hs : '\x7b' ∉ s.name.toList)
    (ht : '\x7b' ∉ t.name.toList) (h : s.text = t.text) : s.name = t.name := by
  have hlist := congrArg String.toList h
  rw [toList_text, toList_text] at hlist
  exact String.toList_injective (append_cons_inj hs ht hlist).1

theorem intercalate_eq_of_text_eq {s t : Series} (hname : s.name = t.name)
    (h : s.text = t.text) :
    [','].intercalate (s.labels.map labelled) = [','].intercalate (t.labels.map labelled) := by
  have hlist := congrArg String.toList h
  rw [toList_text, toList_text, hname] at hlist
  exact List.append_cancel_right (List.cons.inj (List.append_cancel_left hlist)).2

/-!
# Counters
-/

/-- The counters that measurements add one to. -/
inductive Counter where
  | operations (op node : String) (ok : Bool)
  | returned (node : String) (clean : Bool)
  | abandoned (op : String)
  | retries (op cause : String)
  | updates (cache : String) (applied : Bool)
  deriving DecidableEq, Repr

namespace Counter

def series : Counter → Series
  | operations op node ok => (Metrics.operations op node (if ok then "ok" else "error")).1
  | returned node clean => (Metrics.returned node (if clean then "released" else "discarded")).1
  | abandoned op => ⟨"hotrod_operations_abandoned_total", [("op", op)]⟩
  | retries op cause => ⟨"hotrod_retries_total", [("cause", cause), ("op", op)]⟩
  | updates cache applied =>
      ⟨"hotrod_topology_updates_total",
        [("cache", cache), ("outcome", if applied then "applied" else "ignored")]⟩

/-- A counter whose labels hold no commas where these would blur its text. -/
def IsPlain : Counter → Prop
  | operations op _ _ => ',' ∉ op.toList
  | retries _ cause => ',' ∉ cause.toList
  | _ => True

def names : List String :=
  ["hotrod_operations_total", "hotrod_channels_returned_total",
    "hotrod_operations_abandoned_total", "hotrod_retries_total", "hotrod_topology_updates_total"]

theorem name_mem (c : Counter) : c.series.name ∈ names := by
  cases c <;> simp [series, names, Metrics.operations, Metrics.returned, count]

theorem not_mem_of_mem_names : ∀ name ∈ names, '\x7b' ∉ name.toList := by
  decide

/-- The outcome of an update is shown last, in as many letters whichever it is. -/
theorem updates_inj {cache other : String} {applied later : Bool}
    (h : (updates cache applied).series.text = (updates other later).series.text) :
    updates cache applied = updates other later := by
  have hshown := intercalate_eq_of_text_eq (s := (updates cache applied).series)
    (t := (updates other later).series) rfl h
  simp only [series, List.map_cons, List.map_nil, intercalate_pair] at hshown
  have hlength : ∀ applied : Bool,
      (',' :: labelled ("outcome", if applied then "applied" else "ignored")).length = 16 := by
    decide
  rcases List.append_inj' hshown ((hlength applied).trans (hlength later).symm) with
    ⟨hcache, houtcome⟩
  rw [labelled_inj hcache, ite_inj (by decide) (labelled_inj (List.cons.inj houtcome).2)]

/-- In a counter of another kind only the last value can hold a comma. -/
theorem comma_not_mem {c : Counter} (hc : c.IsPlain)
    (hkind : ∀ cache applied, c ≠ updates cache applied) :
    ∀ label ∈ c.series.labels.dropLast, ',' ∉ labelled label := by
  cases c with
  | operations op node ok =>
      have hop : ',' ∉ op.toList := hc
      cases ok <;> simp [series, Metrics.operations, count, labelled, hop]
  | returned node clean => cases clean <;> simp [series, Metrics.returned, count, labelled]
  | abandoned op => simp [series]
  | retries op cause =>
      have hcause : ',' ∉ cause.toList := hc
      simp [series, labelled, hcause]
  | updates cache applied => exact absurd rfl (hkind cache applied)

theorem keys_eq_of_name_eq {c d : Counter} (h : c.series.name = d.series.name) :
    c.series.labels.map Prod.fst = d.series.labels.map Prod.fst := by
  cases c <;> cases d <;> first
    | rfl
    | simp [series, Metrics.operations, Metrics.returned, count] at h

theorem series_injective : Function.Injective series := by
  intro c d h
  cases c <;> cases d <;>
    simp [series, Metrics.operations, Metrics.returned, count] at h ⊢
  case operations.operations => exact ⟨h.1, h.2.2, ite_inj (by decide) h.2.1⟩
  case returned.returned => exact ⟨h.2, ite_inj (by decide) h.1⟩
  case abandoned.abandoned => exact h
  case retries.retries => exact h.symm
  case updates.updates => exact ⟨h.1, ite_inj (by decide) h.2⟩

/-- The text of a plain counter tells which one it is. -/
theorem eq_of_text_eq {c d : Counter} (hc : c.IsPlain) (hd : d.IsPlain)
    (h : c.series.text = d.series.text) : c = d := by
  have hname := name_eq_of_text_eq (not_mem_of_mem_names _ c.name_mem)
    (not_mem_of_mem_names _ d.name_mem) h
  by_cases hupdates : ∃ cache applied, c = updates cache applied
  · rcases hupdates with ⟨cache, applied, rfl⟩
    cases d with
    | updates other later => exact updates_inj h
    | _ => simp [series, Metrics.operations, Metrics.returned, count] at hname
  · have hkind : ∀ cache applied, c ≠ updates cache applied := fun cache applied hc =>
      hupdates ⟨cache, applied, hc⟩
    have hother : ∀ cache applied, d ≠ updates cache applied := by
      rintro cache applied rfl
      cases c with
      | updates cache applied => exact hkind _ _ rfl
      | _ => simp [series, Metrics.operations, Metrics.returned, count] at hname
    have hlabels := labels_eq_of_intercalate_eq (keys_eq_of_name_eq hname) (comma_not_mem hc hkind)
      (comma_not_mem hd hother) (intercalate_eq_of_text_eq hname h)
    exact series_injective (congrArg₂ Series.mk hname hlabels)

end Counter

/-!
# What is counted
-/

/-- What a counter has come to. One that has not been added to is at zero. -/
def total (ms : List Measurement) (c : Counter) : Nat :=
  match (tally ms).get? c.series.text with
  | some (.total n) => n
  | _ => 0

/-- The counters that a measurement adds one to. -/
def bumped : Measurement → List Counter
  | .success op node => [.operations op node true]
  | .failure op node _ => [.operations op node false]
  | .topologyUpdate cache _ applied => [.updates cache applied]
  | .retry op cause => [.retries op cause]
  | .released node => [.returned node true]
  | .discarded node _ => [.returned node false]
  | .abandoned op => [.abandoned op]
  | _ => []

/-- The counters that measurements add one to, each as often as they do. -/
def bumps (ms : List Measurement) : List Counter :=
  ms.flatMap bumped

theorem bumps_append (first last : List Measurement) :
    bumps (first ++ last) = bumps first ++ bumps last :=
  List.flatMap_append

/-- Beside these counters a measurement adds to series that have other names. -/
theorem entries_eq (m : Measurement) :
    ∃ more, entries m = (bumped m).map (fun c => (c.series, .total 1)) ++ more ∧
      ∀ entry ∈ more, entry.1.name ∉ Counter.names ∧ '\x7b' ∉ entry.1.name.toList := by
  cases m with
  | topologyUpdate cache epoch applied =>
      cases applied with
      | true =>
          exact ⟨[(⟨"hotrod_topology_epoch", [("cache", cache)]⟩, .last epoch.toInt)], rfl,
            by simp [Counter.names]⟩
      | false => exact ⟨[], rfl, by simp⟩
  | _ => exact ⟨_, rfl, by simp [durations, count, Counter.names]⟩

/-- An entry that reads like one of these counters adds one to it. -/
theorem eq_one_of_text_eq {m : Measurement} {entry : Series × Value} {c : Counter}
    (hmem : entry ∈ entries m) (h : entry.1.text = c.series.text) : entry.2 = .total 1 := by
  rcases entries_eq m with ⟨more, hentries, hmore⟩
  rw [hentries, List.mem_append] at hmem
  rcases hmem with hmem | hmem
  · rcases List.mem_map.1 hmem with ⟨d, -, rfl⟩
    rfl
  · rcases hmore entry hmem with ⟨hname, hbrace⟩
    have heq := name_eq_of_text_eq hbrace (Counter.not_mem_of_mem_names _ c.name_mem) h
    exact absurd (heq ▸ c.name_mem) hname

theorem get?_foldl_record {new : List (Series × Value)} {t : Table String Value} {k : String}
    {n : Option Nat} (hnew : ∀ entry ∈ new, entry.1.text = k → entry.2 = .total 1)
    (ht : t.get? k = n.map .total) :
    ∃ n' : Option Nat, (new.foldl record t).get? k = n'.map .total ∧
      n'.getD 0 = n.getD 0 + (new.map fun entry => entry.1.text).count k := by
  induction new generalizing t n with
  | nil => exact ⟨n, ht, rfl⟩
  | cons entry rest ih =>
      have hrest : ∀ entry ∈ rest, entry.1.text = k → entry.2 = .total 1 :=
        fun entry hentry => hnew entry (List.mem_cons_of_mem _ hentry)
      rw [List.foldl_cons, List.map_cons, List.count_cons]
      by_cases hk : entry.1.text = k
      · have hstep : (record t entry).get? k = (some (n.getD 0 + 1)).map .total := by
          subst hk
          rw [record, Table.get?_alter_self, ht, hnew entry List.mem_cons_self rfl]
          cases n <;> simp [Value.add]
        rcases ih hrest hstep with ⟨n', hget, hn'⟩
        refine ⟨n', hget, ?_⟩
        rw [hn', if_pos (beq_iff_eq.2 hk), Option.getD_some]
        omega
      · have hstep : (record t entry).get? k = n.map .total := by
          rw [record, Table.get?_alter_of_ne _ _ (Ne.symm hk), ht]
        rcases ih hrest hstep with ⟨n', hget, hn'⟩
        exact ⟨n', hget, by rw [hn', if_neg (by simpa using hk), Nat.add_zero]⟩

variable {ms : List Measurement} {c : Counter}

theorem total_eq_count_text (ms : List Measurement) (c : Counter) :
    total ms c = ((ms.flatMap entries).map fun entry => entry.1.text).count c.series.text := by
  have hentries : ∀ entry ∈ ms.flatMap entries, entry.1.text = c.series.text →
      entry.2 = .total 1 := by
    intro entry hentry
    rcases List.mem_flatMap.1 hentry with ⟨m, -, hmem⟩
    exact eq_one_of_text_eq hmem
  rcases get?_foldl_record (t := []) (n := none) hentries rfl with ⟨n, hget, hn⟩
  rw [total, tally, hget]
  rw [Option.getD_none, Nat.zero_add] at hn
  rw [← hn]
  cases n <;> rfl

theorem total_append (first last : List Measurement) (c : Counter) :
    total (first ++ last) c = total first c + total last c := by
  simp only [total_eq_count_text, List.flatMap_append, List.map_append, List.count_append]

theorem total_perm {first last : List Measurement} (h : first.Perm last) (c : Counter) :
    total first c = total last c := by
  rw [total_eq_count_text, total_eq_count_text]
  exact ((h.flatMap_right entries).map _).count_eq _

theorem count_text_entries {m : Measurement} (hm : ∀ d ∈ bumped m, d.IsPlain) (hc : c.IsPlain) :
    ((entries m).map fun entry => entry.1.text).count c.series.text = (bumped m).count c := by
  rcases entries_eq m with ⟨more, hentries, hmore⟩
  have hother : c.series.text ∉ more.map fun entry => entry.1.text := by
    intro hmem
    rcases List.mem_map.1 hmem with ⟨entry, hentry, htext⟩
    rcases hmore entry hentry with ⟨hname, hbrace⟩
    have heq := name_eq_of_text_eq hbrace (Counter.not_mem_of_mem_names _ c.name_mem) htext
    exact hname (heq ▸ c.name_mem)
  rw [hentries, List.map_append, List.count_append, List.count_eq_zero_of_not_mem hother,
    Nat.add_zero, List.map_map, List.count, List.countP_map, List.count]
  refine List.countP_congr fun d hd => ?_
  simp only [Function.comp_apply, beq_iff_eq]
  exact ⟨fun h => Counter.eq_of_text_eq (hm d hd) hc h, fun h => h ▸ rfl⟩

/-- What a counter has come to is how often it has been added to. -/
theorem total_eq_count (hms : ∀ d ∈ bumps ms, d.IsPlain) (hc : c.IsPlain) :
    total ms c = (bumps ms).count c := by
  rw [total_eq_count_text]
  induction ms with
  | nil => rfl
  | cons m ms ih =>
      have hall : ∀ d ∈ bumped m ++ bumps ms, d.IsPlain := hms
      rw [List.forall_mem_append] at hall
      rw [List.flatMap_cons, List.map_append, List.count_append, count_text_entries hall.1 hc,
        ih hall.2, bumps, bumps, List.flatMap_cons, List.count_append]

/-- What has been recorded adds to what the counters had come to before. -/
theorem total_of_perm {own before after : List Measurement} (h : after.Perm (own ++ before))
    (hown : ∀ d ∈ bumps own, d.IsPlain) (hc : c.IsPlain) :
    total after c = total before c + (bumps own).count c := by
  rw [total_perm h, total_append, total_eq_count hown hc, Nat.add_comm]

end Metrics
end GridClient
