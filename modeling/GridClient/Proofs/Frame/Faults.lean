import GridClient.Client
import GridClient.Frame.Response

/-!
# What can be wrong with a response

The front of a response, and the topology that comes with it, either make sense or break
the protocol. There is no other way for them to fail, so a response that cannot be made
sense of always speaks against the channel it came on.
-/

namespace GridClient

namespace ClientError

def IsFault (e : ClientError) : Prop :=
  ∃ f, e = .protocol f

theorem IsFault.poisonsChannel {e : ClientError} (h : e.IsFault) : e.poisonsChannel = true := by
  rcases h with ⟨f, rfl⟩
  rfl

/-- A result that is an error only where the protocol is broken. -/
def OnlyFaults {α : Type} (x : Except ClientError α) : Prop :=
  ∀ e, x = .error e → e.IsFault

theorem onlyFaults_ok {α : Type} (a : α) : OnlyFaults (.ok a) := by
  intro e he
  cases he

theorem onlyFaults_fault {α : Type} (f : ProtocolFault) :
    OnlyFaults (.error (.protocol f) : Except ClientError α) := by
  intro e he
  cases he
  exact ⟨f, rfl⟩

variable {α β : Type}

theorem OnlyFaults.bind {x : Except ClientError α} {f : α → Except ClientError β}
    (hx : OnlyFaults x) (hf : ∀ a, OnlyFaults (f a)) : OnlyFaults (x >>= f) := by
  intro e he
  cases x with
  | ok a => exact hf a e he
  | error e' =>
      cases he
      exact hx e rfl

theorem OnlyFaults.map {x : Except ClientError α} (hx : OnlyFaults x) (f : α → β) :
    OnlyFaults (f <$> x) := by
  intro e he
  cases x with
  | ok a => cases he
  | error e' =>
      cases he
      exact hx e rfl

theorem OnlyFaults.mapM {f : α → Except ClientError β} (hf : ∀ a, OnlyFaults (f a))
    (as : List α) : OnlyFaults (as.mapM f) := by
  induction as with
  | nil => exact onlyFaults_ok []
  | cons a as ih =>
      rw [List.mapM_cons]
      exact (hf a).bind fun b => ih.bind fun bs => onlyFaults_ok (b :: bs)

end ClientError

open ClientError

/-!
# Readers that fail on a fault only
-/

namespace Reader

variable {α β : Type}

def OnlyFaults (r : Reader α) : Prop :=
  ∀ buffer, ClientError.OnlyFaults (r buffer).1

theorem onlyFaults_pure (a : α) : OnlyFaults (pure a : Reader α) :=
  fun _ => onlyFaults_ok a

theorem onlyFaults_fault (f : ProtocolFault) : OnlyFaults (fault f : Reader α) :=
  fun _ => ClientError.onlyFaults_fault f

theorem OnlyFaults.bind {r : Reader α} {next : α → Reader β} (hr : OnlyFaults r)
    (hnext : ∀ a, OnlyFaults (next a)) : OnlyFaults (r >>= next) := by
  intro buffer
  rcases hread : r buffer with ⟨e | a, rest⟩
  · rw [bind_run_error next hread]
    intro e' he
    cases he
    exact hr buffer e (congrArg Prod.fst hread)
  · rw [bind_run_ok next hread]
    exact hnext a rest

theorem onlyFaults_byte : OnlyFaults byte := by
  intro buffer
  cases buffer with
  | nil => exact ClientError.onlyFaults_fault _
  | cons b rest => exact onlyFaults_ok b

theorem onlyFaults_take (n : Nat) (field : String) : OnlyFaults (take n field) := by
  intro buffer
  unfold take
  split
  · exact onlyFaults_ok _
  · exact ClientError.onlyFaults_fault _

theorem onlyFaults_uint16 : OnlyFaults uint16 :=
  (onlyFaults_take 2 _).bind fun _ => onlyFaults_pure _

theorem onlyFaults_manyFrom {r : Nat → Reader α} (hr : ∀ i, OnlyFaults (r i)) (i n : Nat) :
    OnlyFaults (manyFrom r i n) := by
  induction n generalizing i with
  | zero => exact onlyFaults_pure []
  | succ n ih => exact (hr i).bind fun a => (ih (i + 1)).bind fun as => onlyFaults_pure (a :: as)

theorem OnlyFaults.many {r : Reader α} (hr : OnlyFaults r) (n : Nat) : OnlyFaults (many n r) := by
  rw [many_eq_manyFrom r 0]
  exact onlyFaults_manyFrom (fun _ => hr) 0 n

end Reader

open Reader

/-!
# Numbers and texts
-/

theorem Varint.onlyFaults_groups (left shift sum : Nat) : OnlyFaults (groups left shift sum) := by
  induction left generalizing shift sum with
  | zero => exact onlyFaults_fault _
  | succ left ih =>
      refine onlyFaults_byte.bind ?_
      intro b
      dsimp only
      split
      · exact onlyFaults_pure _
      · exact ih _ _

theorem Varint.onlyFaults_uint64 : OnlyFaults uint64 :=
  (onlyFaults_groups 10 0 0).bind fun _ => onlyFaults_pure _

theorem Varint.onlyFaults_uint32 : OnlyFaults uint32 := by
  refine onlyFaults_uint64.bind ?_
  intro n
  split
  · exact onlyFaults_pure _
  · exact onlyFaults_fault _

theorem Varint.onlyFaults_length : OnlyFaults length :=
  onlyFaults_uint32.bind fun _ => onlyFaults_pure _

theorem Block.onlyFaults_text : OnlyFaults text := by
  refine (Varint.onlyFaults_length.bind fun n => onlyFaults_take n _).bind ?_
  intro b
  unfold decodeText
  split
  · exact onlyFaults_pure _
  · exact onlyFaults_fault _

/-!
# Topologies
-/

namespace TopologyUpdate

theorem onlyFaults_server : OnlyFaults server :=
  Block.onlyFaults_text.bind fun _ => onlyFaults_uint16.bind fun _ => onlyFaults_pure _

theorem onlyFaults_segment (servers index : Nat) : OnlyFaults (segment servers index) := by
  have howner : OnlyFaults (owner servers index) := by
    refine Varint.onlyFaults_uint32.bind ?_
    intro position
    split
    · exact onlyFaults_pure _
    · exact onlyFaults_fault _
  exact onlyFaults_byte.bind fun count => howner.many count.toNat

theorem onlyFaults_reader (intelligence : Intelligence) : OnlyFaults (reader intelligence) := by
  refine Varint.onlyFaults_uint32.bind fun id => Varint.onlyFaults_length.bind fun count =>
    (onlyFaults_server.many count).bind ?_
  intro servers
  split
  · refine onlyFaults_byte.bind ?_
    intro hashFunction
    split
    · exact onlyFaults_pure _
    · exact Varint.onlyFaults_length.bind fun count =>
        (onlyFaults_manyFrom (onlyFaults_segment servers.length) 0 count).bind fun _ =>
          onlyFaults_pure _
  · exact onlyFaults_pure _

end TopologyUpdate

theorem Topology.onlyFaults_ofUpdate (u : TopologyUpdate) (intelligence : Intelligence) :
    ClientError.OnlyFaults (ofUpdate u intelligence) := by
  have hserver : ∀ index, ClientError.OnlyFaults (SegmentMap.serverAt u.servers index) := by
    intro index
    unfold SegmentMap.serverAt
    split
    · exact onlyFaults_ok _
    · exact ClientError.onlyFaults_fault _
  have hmap : ∀ table, ClientError.OnlyFaults (SegmentMap.ofIndices u.servers table) := by
    intro table
    refine (OnlyFaults.mapM (OnlyFaults.mapM hserver) table).bind ?_
    intro owners
    unfold SegmentMap.ofOwners
    split
    · exact ClientError.onlyFaults_fault _
    · exact onlyFaults_ok _
  unfold ofUpdate
  dsimp only
  split
  · split
    · exact ((hmap _).map some).bind fun _ => onlyFaults_ok _
    · exact onlyFaults_ok _
  · exact onlyFaults_ok _

/-- A topology that cannot be installed breaks the protocol. -/
theorem Client.onlyFaults_install (c : Client) (cache : Bytes) (u : TopologyUpdate) :
    ClientError.OnlyFaults (c.install cache u).1 := by
  unfold install Registry.apply
  cases hu : Topology.ofUpdate u c.registry.intelligence with
  | ok t => exact onlyFaults_ok _
  | error e =>
      intro e' he
      cases he
      exact Topology.onlyFaults_ofUpdate u _ e hu

/-!
# Response headers
-/

namespace ResponseHeader

theorem onlyFaults_topologyReader (intelligence : Intelligence) :
    OnlyFaults (topologyReader intelligence) := by
  refine onlyFaults_byte.bind ?_
  intro marker
  split
  · exact onlyFaults_pure _
  · exact (TopologyUpdate.onlyFaults_reader intelligence).bind fun _ => onlyFaults_pure _
  · exact onlyFaults_fault _

theorem onlyFaults_reader (intelligence : Intelligence) : OnlyFaults (reader intelligence) := by
  refine onlyFaults_byte.bind ?_
  intro found
  split
  · exact Varint.onlyFaults_uint64.bind fun _ => onlyFaults_byte.bind fun _ =>
      onlyFaults_byte.bind fun _ => (onlyFaults_topologyReader intelligence).bind fun _ =>
        onlyFaults_pure _
  · exact onlyFaults_fault _

end ResponseHeader
end GridClient
