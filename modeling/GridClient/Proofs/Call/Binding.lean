import GridClient.Call.Binding
import GridClient.Proofs.Call.Dispatch
import GridClient.Proofs.Program.History
import GridClient.Proofs.Wire.RoundTrip
import Mathlib.Logic.Function.Basic

/-!
# Flags for one request

A caller sets flags in a context, and the next request that is built with the context takes them
away. They travel in the header of every frame of that request, next to those that the settings
and the expiration ask for, and in no frame of any other.
-/

namespace GridClient

/-!
# Expirations and their flags
-/

namespace Flags

variable {a b x : Flags}

theorem contains_or_right (h : b.contains x) : (a ||| b).contains x := by
  unfold contains at h ⊢
  rw [beq_iff_eq] at h ⊢
  apply UInt32.toBitVec_inj.1
  have hbits := congrArg UInt32.toBitVec h
  show (a.bits.toBitVec ||| b.bits.toBitVec) &&& x.bits.toBitVec = x.bits.toBitVec
  rw [UInt32.toBitVec_and] at hbits
  rw [← hbits]
  ext i hi
  simp only [BitVec.getElem_and, BitVec.getElem_or]
  cases b.bits.toBitVec[i] <;> simp

theorem or_comm (a b : Flags) : a ||| b = b ||| a :=
  congrArg mk (UInt32.or_comm a.bits b.bits)

theorem or_none (a : Flags) : a ||| none = a :=
  congrArg mk UInt32.or_zero

theorem contains_or_left (h : a.contains x) : (a ||| b).contains x := by
  rw [or_comm]
  exact contains_or_right h

/-- Where a first byte of an expiration leaves a lifetime to the server, the flags say so too. -/
structure Agree (flags : Flags) (units : UInt8) : Prop where
  lifespan : units >>> 4 = 7 → flags.contains .defaultLifespan
  maxIdle : units &&& 0x0F = 7 → flags.contains .defaultMaxIdle

/-- The frame has these flags in its header, and they agree with the expiration that comes in its
body after some first part. Pings that refresh the topology have neither. -/
def Heads (flags : Flags) (front frame : Bytes) : Prop :=
  ∃ header : RequestHeader, (frame = header.toBytes ∧ header.opCode = OpCode.ping.code) ∨
    ∃ units rest, frame = header.toBytes ++ (front ++ units :: rest) ∧ header.flags = flags ∧
      flags.Agree units

end Flags

theorem Lifetime.eq_serverDefault {l : Lifetime} (h : l.parts.1 = 7) : l = .serverDefault := by
  cases l with
  | serverDefault => rfl
  | immortal => exact absurd h (by decide)
  | after d =>
      unfold parts at h
      dsimp only at h
      split at h
      · have hseconds : (0 : UInt8) = 7 := h
        exact absurd hseconds (by decide)
      · split at h
        · have hmillis : (1 : UInt8) = 7 := h
          exact absurd hmillis (by decide)
        · have hnanos : (2 : UInt8) = 7 := h
          exact absurd hnanos (by decide)

theorem Expiration.agree (e : Expiration) (flags : Flags) :
    (flags ||| e.impliedFlags).Agree (e.lifespan.parts.1 <<< 4 ||| e.maxIdle.parts.1) := by
  have hunits := units_apart e.lifespan.unit_lt e.maxIdle.unit_lt
  constructor
  case lifespan =>
    intro h
    rw [hunits.1] at h
    apply Flags.contains_or_right
    apply Flags.contains_or_left
    rw [Lifetime.eq_serverDefault h]
    rfl
  case maxIdle =>
    intro h
    rw [hunits.2] at h
    apply Flags.contains_or_right
    apply Flags.contains_or_right
    rw [Lifetime.eq_serverDefault h]
    rfl

namespace Operation

variable {op : OpCode}

/-- For the operations whose flags go by their expiration: the part of the body that comes before
the expiration, and the expiration. Writes in chunks and transactions hold expirations too, but
they only send them. -/
def expiring? : {op : OpCode} → Operation op → Option (Bytes × Expiration)
  | _, put k _ e => some (Block.ofBytes k, e)
  | _, putIfAbsent k _ e => some (Block.ofBytes k, e)
  | _, replace k _ e => some (Block.ofBytes k, e)
  | _, replaceIfUnmodified k _ _ e => some (Block.ofBytes k, e)
  | _, putAll _ e => some ([], e)
  | _, _ => none

theorem impliedFlags_eq (o : Operation op) :
    o.impliedFlags = o.expiring?.elim .none fun x => x.2.impliedFlags := by
  cases o <;> rfl

theorem body_of_expiring {o : Operation op} {front : Bytes} {e : Expiration}
    (h : o.expiring? = some (front, e)) : ∃ rest, o.body = front ++ (e.toBytes ++ rest) := by
  cases o <;> cases h
  case put => exact ⟨_, rfl⟩
  case putIfAbsent => exact ⟨_, rfl⟩
  case replace => exact ⟨_, rfl⟩
  case replaceIfUnmodified => exact ⟨_, rfl⟩
  case putAll => exact ⟨_, rfl⟩

end Operation

namespace Transaction

variable {xid : Xid}

theorem ofXid_of_null (h : xid.globalId = []) {onePhase recoverable : Bool} {timeout : Duration}
    {modifications : List Modification} :
    ofXid xid onePhase recoverable timeout modifications =
      .error (.invalidArgument "Transaction prepare requires a non-null xid") :=
  dif_pos h

theorem ofXid_of_named (h : xid.globalId ≠ []) (onePhase recoverable : Bool) (timeout : Duration)
    (modifications : List Modification) :
    ∃ transaction, ofXid xid onePhase recoverable timeout modifications = .ok transaction :=
  ⟨_, dif_neg h⟩

end Transaction

/-!
# Demands
-/

/-- What a caller may have built for it with a context. A transaction is given by its parts, since
not all of them make one. -/
inductive Demand where
  | single {op : OpCode} (operation : Operation op)
  | getAll (keys : List Bytes)
  | putAll (entries : List (Bytes × Bytes)) (e : Expiration)
  | scan (options : ScanOptions)
  | prepare (xid : Xid) (onePhase recoverable : Bool) (timeout : Duration)
      (modifications : List Modification)

/-- What is built for a demand. -/
inductive Bound where
  | single {op : OpCode} (r : Request op)
  | getAll (r : BulkRequest .getAll Bytes)
  | putAll (r : BulkRequest .putAll (Bytes × Bytes))
  | scan (s : Scan)

namespace Bound

def flags : Bound → Flags
  | single r => r.flags
  | getAll r => r.flags
  | putAll r => r.flags
  | scan s => s.flags

/-- A frame that is written in some run when what was built is carried out. -/
def Writes (b : Bound) (frame : Bytes) : Prop :=
  match b with
  | single r => ∃ (deadline : Instant) (trace : Call.Trace Unit) (stand : Call.Stand Unit _),
      Call.Reaches (r.executeUntil deadline) trace stand ∧ Call.Writes trace stand frame
  | getAll r => ∃ (deadline : Instant) (trace : Call.Trace Unit) (stand : Call.Stand Unit _),
      Call.Reaches (r.executeUntil deadline) trace stand ∧ Call.Writes trace stand frame
  | putAll r => ∃ (deadline : Instant) (trace : Call.Trace Unit) (stand : Call.Stand Unit _),
      Call.Reaches (r.executeUntil deadline) trace stand ∧ Call.Writes trace stand frame
  | scan s => ∃ (turns : Nat) (trace : Call.Trace Scan) (stand : Call.Stand Scan _),
      Call.Reaches (s.nextPage turns) trace stand ∧ Call.Writes trace stand frame

/-- All frames that are written are headed by the flags. -/
def Tells (b : Bound) (front : Bytes) : Prop :=
  ∀ frame, b.Writes frame → b.flags.Heads front frame

end Bound

/-- If a call sends expirations with the flags that they imply, these head all its frames. -/
theorem Call.heads_of_writes {op : OpCode} {σ α : Type} {cache : RemoteCache} {deadline : Instant}
    {flags others : Flags} {sends : Operation op → Prop} {front : Bytes} {e : Expiration}
    {p : Call σ α} {trace : Call.Trace σ} {stand : Call.Stand σ α} {frame : Bytes}
    (honly : Program.Only (Ask.Dispatches cache deadline flags sends) p)
    (hflags : flags = others ||| e.impliedFlags)
    (hsends : ∀ o, sends o → o.expiring? = some (front, e)) (h : Reaches p trace stand)
    (hwrites : Writes trace stand frame) : flags.Heads front frame := by
  rcases frame_of_only honly h hwrites with ⟨other, a, id, version, hdispatched, rfl⟩
  refine ⟨a.header id version, ?_⟩
  cases hdispatched with
  | ping t => exact .inl ⟨List.append_nil _, rfl⟩
  | @own r hown hoperation t target =>
      rcases Operation.body_of_expiring (hsends _ hoperation) with ⟨rest, hbody⟩
      refine .inr ⟨e.lifespan.parts.1 <<< 4 ||| e.maxIdle.parts.1,
        (e.lifespan.amount ++ e.maxIdle.amount) ++ rest, congrArg (_ ++ ·) hbody, hown, ?_⟩
      rw [hflags]
      exact e.agree others

namespace Demand

/-- Builds what is demanded, with the flags that are pending in a context. -/
def bind (cache : RemoteCache) (t : Topology) (c : CallContext) :
    Demand → Except ClientError Bound × CallContext
  | single operation =>
      let (r, c) := cache.request t c operation
      (.ok (.single r), c)
  | getAll keys =>
      let (r, c) := cache.getAll t c keys
      (.ok (.getAll r), c)
  | putAll entries e =>
      let (r, c) := cache.putAll t c entries e
      (.ok (.putAll r), c)
  | scan options =>
      let (s, c) := cache.scan c options
      (.ok (.scan s), c)
  | prepare xid onePhase recoverable timeout modifications =>
      match Transaction.ofXid xid onePhase recoverable timeout modifications with
      | .ok transaction =>
          let (r, c) := cache.request t c (.prepareTransaction transaction)
          (.ok (.single r), c)
      | .error e => (.error e, c)

/-- Only transactions without a global identifier are turned down. -/
def Accepted : Demand → Prop
  | prepare xid _ _ _ _ => xid.globalId ≠ []
  | _ => True

def expiring? : Demand → Option (Bytes × Expiration)
  | single operation => operation.expiring?
  | putAll _ e => some ([], e)
  | _ => none

def impliedFlags (d : Demand) : Flags :=
  d.expiring?.elim .none fun x => x.2.impliedFlags

variable {d : Demand}

theorem bind_of_rejected (cache : RemoteCache) (t : Topology) (c : CallContext)
    (h : ¬ d.Accepted) : ∃ e, d.bind cache t c = (.error e, c) := by
  cases d with
  | prepare xid onePhase recoverable timeout modifications =>
      have hnull : xid.globalId = [] := not_not.1 h
      rw [bind, Transaction.ofXid_of_null hnull]
      exact ⟨_, rfl⟩
  | _ => exact absurd trivial h

/-- What is built has the flags of the context, those of the settings and those of its own
expiration. Nothing is pending in the context any more. -/
theorem bind_of_accepted (cache : RemoteCache) (t : Topology) (c : CallContext)
    (h : d.Accepted) : ∃ b, d.bind cache t c = (.ok b, {}) ∧
      b.flags = c.flags.getD .none ||| Flags.forceReturnValue.onlyIf cache.config.forceReturnValues
        ||| d.impliedFlags := by
  cases d with
  | single operation =>
      refine ⟨_, rfl, ?_⟩
      exact congrArg (_ ||| ·) operation.impliedFlags_eq
  | getAll keys => exact ⟨_, rfl, (Flags.or_none _).symm⟩
  | putAll entries e => exact ⟨_, rfl, rfl⟩
  | scan options => exact ⟨_, rfl, (Flags.or_none _).symm⟩
  | prepare xid onePhase recoverable timeout modifications =>
      rcases Transaction.ofXid_of_named h onePhase recoverable timeout modifications with
        ⟨transaction, htransaction⟩
      rw [bind, htransaction]
      exact ⟨_, rfl, rfl⟩

theorem tells_of_expiring {cache : RemoteCache} {t : Topology} {c after : CallContext} {b : Bound}
    {front : Bytes} {e : Expiration} (hbind : d.bind cache t c = (.ok b, after))
    (h : d.expiring? = some (front, e)) : b.Tells front := by
  cases d with
  | single operation =>
      cases hbind
      have himplied : operation.impliedFlags = e.impliedFlags := by
        have hoperation : operation.expiring? = some (front, e) := h
        rw [operation.impliedFlags_eq, hoperation]
        rfl
      rintro frame ⟨deadline, trace, stand, hrun, hwrites⟩
      apply Call.heads_of_writes (Request.only_executeUntil _ deadline)
        (congrArg (_ ||| ·) himplied) _ hrun hwrites
      rintro o rfl
      exact h
  | putAll entries e =>
      cases hbind
      cases h
      rintro frame ⟨deadline, trace, stand, hrun, hwrites⟩
      apply Call.heads_of_writes (BulkRequest.only_executeUntil _ deadline) rfl _ hrun hwrites
      rintro o ⟨items, rfl⟩
      rfl
  | getAll keys => cases h
  | scan options => cases h
  | prepare xid onePhase recoverable timeout modifications => cases h

end Demand

/-!
# Histories of contexts
-/

namespace CallContext

variable {ι : Type}

/-- What a caller does with one of its contexts. Every demand may be made of another cache, under
the topology that is current then. -/
inductive Deed (ι : Type) where
  | set (i : ι) (flags : Flags)
  | take (i : ι)
  | bind (i : ι) (cache : RemoteCache) (t : Topology) (d : Demand)

namespace Deed

def owner : Deed ι → ι
  | set i _ => i
  | take i => i
  | bind i _ _ _ => i

/-- The context after the deed. -/
def apply (c : CallContext) : Deed ι → CallContext
  | set _ flags => c.set flags
  | take _ => c.take.2
  | bind _ cache t d => (d.bind cache t c).2

/-- The flags that were pending in a context are not pending any more, though new ones may be. -/
def Uses (i : ι) : Deed ι → Prop
  | set j _ => j = i
  | take j => j = i
  | bind j _ _ d => j = i ∧ d.Accepted

end Deed

variable [DecidableEq ι] {history : List (Deed ι)} {i : ι}

/-- The contexts after some deeds. All of them are new at first. -/
def after (history : List (Deed ι)) : ι → CallContext :=
  history.foldl (fun contexts d => Function.update contexts d.owner (d.apply (contexts d.owner)))
    fun _ => {}

theorem after_concat (history : List (Deed ι)) (d : Deed ι) (i : ι) :
    after (history ++ [d]) i =
      if d.owner = i then d.apply (after history i) else after history i := by
  unfold after
  rw [List.foldl_append, List.foldl_cons, List.foldl_nil, Function.update_apply]
  by_cases h : d.owner = i
  · rw [if_pos h, if_pos h.symm, h]
  · rw [if_neg h, if_neg (Ne.symm h)]

/-- A deed sets flags, or it leaves what it does not use. -/
theorem flags_step (c : CallContext) (d : Deed ι) (i : ι) (flags : Flags) :
    (if d.owner = i then d.apply c else c).flags = some flags ↔
      d = .set i flags ∨ (c.flags = some flags ∧ ¬ d.Uses i) := by
  by_cases howner : d.owner = i
  · subst howner
    rw [if_pos rfl]
    cases d with
    | set j new =>
        have hused : Deed.Uses j (.set j new) := rfl
        simp [Deed.apply, Deed.owner, CallContext.set, hused]
    | take j =>
        have hused : Deed.Uses j (.take j) := rfl
        simp [Deed.apply, Deed.owner, CallContext.take, hused]
    | bind j cache t d =>
        by_cases haccepted : d.Accepted
        · rcases d.bind_of_accepted cache t c haccepted with ⟨b, hbind, -⟩
          have hused : Deed.Uses j (.bind j cache t d) := ⟨rfl, haccepted⟩
          simp [Deed.apply, Deed.owner, hbind, hused]
        · rcases d.bind_of_rejected cache t c haccepted with ⟨e, hbind⟩
          have hunused : ¬ Deed.Uses j (.bind j cache t d) := fun h => haccepted h.2
          simp [Deed.apply, Deed.owner, hbind, hunused]
  · have hunused : ¬ d.Uses i := by
      cases d with
      | set j new => exact howner
      | take j => exact howner
      | bind j cache t d => exact fun h => howner h.1
    have hother : d ≠ .set i flags := by
      rintro rfl
      exact howner rfl
    rw [if_neg howner, or_iff_right hother, and_iff_left hunused]

/-- The pending flags are the last ones that were set, unless they have been used since. -/
theorem pending_iff_since (history : List (Deed ι)) (i : ι) (flags : Flags) :
    (after history i).flags = some flags ↔ Since (· = .set i flags) (Deed.Uses i) history := by
  induction history using List.reverseRecOn with
  | nil => exact iff_of_false nofun not_since_nil
  | append_singleton history d ih => rw [after_concat, flags_step, since_concat, ih]

/-- What is done with the other contexts does not matter to a context. -/
theorem after_filter (history : List (Deed ι)) (i : ι) :
    after (history.filter fun d => d.owner = i) i = after history i := by
  induction history using List.reverseRecOn with
  | nil => rfl
  | append_singleton history d ih =>
      rw [after_concat, List.filter_append, ← ih]
      by_cases howner : d.owner = i
      · have hkept : [d].filter (fun d => d.owner = i) = [d] := by simp [howner]
        rw [hkept, after_concat, if_pos howner]
      · have hdropped : [d].filter (fun d => d.owner = i) = [] := by simp [howner]
        rw [hdropped, List.append_nil, if_neg howner]

/-- Whatever has been done with any contexts: the flags that were set last in a context and have
not been used since are pending in it, and the other contexts have no part in this. A demand that
is turned down leaves them pending. Any other demand uses them up, and what is built for it has
just them, those of the settings, and for a write those that its expiration implies, so that its
frames agree with their expirations. -/
theorem flags_used_once (history : List (Deed ι)) (i : ι) (cache : RemoteCache) (t : Topology)
    (d : Demand) :
    (∀ flags, (after history i).flags = some flags ↔
      Since (· = .set i flags) (Deed.Uses i) history) ∧
    (∀ other : List (Deed ι), (other.filter fun d => d.owner = i) =
      (history.filter fun d => d.owner = i) → after other i = after history i) ∧
    (¬ d.Accepted → ∃ e, d.bind cache t (after history i) = (.error e, after history i)) ∧
    (d.Accepted → ∃ b, d.bind cache t (after history i) = (.ok b, {}) ∧
      b.flags = (after history i).flags.getD .none
        ||| Flags.forceReturnValue.onlyIf cache.config.forceReturnValues ||| d.impliedFlags ∧
      ∀ front e, d.expiring? = some (front, e) → b.Tells front) := by
  refine ⟨pending_iff_since history i, ?_, d.bind_of_rejected cache t _, ?_⟩
  · intro other hsame
    rw [← after_filter other, hsame, after_filter]
  · intro haccepted
    rcases d.bind_of_accepted cache t (after history i) haccepted with ⟨b, hbind, hflags⟩
    refine ⟨b, hbind, hflags, ?_⟩
    intro front e hexpiring
    exact Demand.tells_of_expiring hbind hexpiring

/-- A cache whose writes return the old values. -/
def returningCache : RemoteCache where
  name := "books"
  config := { forceReturnValues := true }
  intelligence := .basic

/-- Flags are set in both contexts; those of the first one outlive a transaction that has no
identifier, those of the second one are taken away. -/
def turnedDown : List (Deed Bool) :=
  [.set true .skipCacheLoad, .set false .skipIndexing,
    .bind true returningCache (.initial .basic [])
      (.prepare ⟨0, [], [7]⟩ true false (.ofSeconds 1) []),
    .take false]

/-- The frame of the next write, which leaves the lifespan of its entry to the server. -/
def leftFrame : Bytes :=
  [0xA0, 1, 31, 0x01, 5, 98, 111, 111, 107, 115, 0x0b, 1, 255, 255, 255, 255, 15, 0, 0,
    1, 1, 0x78, 1, 2]

theorem flags_used_once_turnedDown :
    (after turnedDown true).flags = some .skipCacheLoad ∧ (after turnedDown false).flags = none ∧
      ∃ b, (Demand.single (.put [1] [2] { maxIdle := .immortal })).bind returningCache
          (.initial .basic []) (after turnedDown true) = (.ok b, {}) ∧
        b.flags = ⟨0x0b⟩ ∧ b.Writes leftFrame ∧ b.flags.Heads (Block.ofBytes [1]) leftFrame := by
  have hused := flags_used_once turnedDown true returningCache (.initial .basic [])
    (.single (.put [1] [2] { maxIdle := .immortal }))
  rcases hused.2.2.2 trivial with ⟨b, hbind, hflags, htells⟩
  have hwrites : b.Writes leftFrame := by
    cases hbind
    -- the first attempt has got its channel and waits for its frame to be written
    refine ⟨9, [], _, .waiting trivial, _, List.mem_singleton_self _, _, _, .attempt _,
      [⟨.messageId, 1⟩, ⟨.acquire .any 9, .ready (.ok ⟨1, ⟨"a", 1⟩, .v31⟩)⟩,
        ⟨.enter .channelAcquired, ()⟩], _,
      .answered _ (.answered _ (.answered _ (.waiting trivial))), List.mem_singleton.2 ?_⟩
    decide +kernel
  exact ⟨rfl, rfl, b, hbind, hflags, hwrites, htells _ _ rfl _ hwrites⟩

end CallContext
end GridClient
