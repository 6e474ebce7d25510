/-
A stream of data frames of one encoding from the sender's `vmac_tx` to the receiver's
`vmac_rx`, each frame once and in order.

Up to the wrap of the counter the window is exact and every frame is new.  After it the
highest number stays at 65535, every slot of the window is marked, and every frame is a
duplicate.
-/
import VMac.FramePath
import VMac.ReceiveWindow

set_option autoImplicit false

namespace VMac

open FallibleRun (run)

/-! ### One frame -/

def Action.isNlSend : Action → Bool
  | .nlSend _ _ _ _ => true
  | _ => false

/-- One frame of the stream: what userspace gives to the sender, what the two nodes meet on
the way, and the bytes that the driver of the receiver appends. -/
structure Transfer where
  skb : SkBuff
  tmprate : U8
  seqtmp : U16
  tx : TxAnswers
  addr : Nat
  trailer : List Byte
  rx : RxAnswers

abbrev Stream := Tables × Tables

def transfer (bucket : BucketOf) (order : ByteOrder) (enc : U64) (nodes : Stream)
    (frame : Transfer) : Except Fault (Stream × List Action) := do
  let (sender, sent) ← vmacTx bucket order nodes.1 frame.tx frame.skb enc VMAC_HDR_DATA
    frame.tmprate frame.seqtmp
  match sent.findSome? Action.uploaded with
  | none => return ((sender, nodes.2), [])
  | some (skb, _) => do
      let (receiver, received) ← vmacRx bucket order nodes.2 frame.rx
        { addr := frame.addr, data := skb.data ++ frame.trailer }
      return ((sender, receiver), received)

/-- The assumptions on the allocators and the driver: a new entry and a queue entry are there,
and the driver appends the frame check sequence. -/
structure Passes (frame : Transfer) : Prop where
  entry : frame.tx.rawTx.isSome
  queued : frame.tx.entry = true
  trailer : frame.trailer.length = 4

theorem handOver_once (order : ByteOrder) (answers : RxAnswers) (skb : SkBuff) (enc : U64)
    (type : U8) (seq : U16) (long : 4 ≤ skb.data.length) :
    ∃ rest, handOver order answers skb enc type seq =
      .ok (.nlSend skb enc type seq :: rest) ∧ rest.countP Action.isNlSend = 0 := by
  unfold handOver nlSend
  by_cases registered : answers.pidt ≠ -1
  · rw [if_pos registered]
    cases answers.message with
    | false => exact ⟨[], rfl, rfl⟩
    | true =>
        simp only [Bool.not_true, Bool.false_eq_true, if_false]
        rw [if_neg (by omega)]
        exact ⟨_, rfl, rfl⟩
  · rw [if_neg registered]
    exact ⟨_, rfl, rfl⟩

theorem vmacRx_data_once (bucket : BucketOf) (order : ByteOrder) (enc : U64) (receiver : Tables)
    (vmacr : EncodingRx) (found : receiver.findRx bucket enc = some vmacr) (answers : RxAnswers)
    (addr : Nat) (seq : U16) (rest : List Byte) (long : 4 ≤ rest.length)
    (reception : Reception)
    (received : vmacr.receiveData seq answers.jiffies = .ok reception) :
    ∃ actions, vmacRx bucket order receiver answers
        { addr := addr, data := dataFrame order enc seq rest } =
          .ok (receiver.writeRx bucket enc reception.entry, actions) ∧
      actions.countP Action.isNlSend = (if reception.delivered then 1 else 0) ∧
      (reception.delivered = true →
        .nlSend { addr := addr, data := rest } enc VMAC_HDR_DATA seq ∈ actions) := by
  cases delivered : reception.delivered with
  | false =>
      refine ⟨_, vmacRx_dropped bucket order enc receiver vmacr found answers addr seq rest
        reception received delivered, rfl, ?_⟩
      intro impossible
      cases impossible
  | true =>
      obtain ⟨after, handed, none_⟩ := handOver_once order answers
        { addr := addr, data := rest } enc VMAC_HDR_DATA seq long
      have requests : (reception.request.toList.map
          (fun round => Action.requestDACK enc round answers.request)).countP
            Action.isNlSend = 0 := by
        cases reception.request <;> rfl
      refine ⟨_, vmacRx_delivered bucket order enc receiver vmacr found answers addr seq rest
        reception received delivered handed, ?_, ?_⟩
      · rw [List.countP_append, requests, List.countP_cons, none_]
        rfl
      · intro _
        exact List.mem_append_right _ List.mem_cons_self

def HandedOnce (enc : U64) (frame : Transfer) (received : List Action) : Prop :=
  received.countP Action.isNlSend = 1 ∧ ∃ seq,
    .nlSend { addr := frame.addr, data := frame.skb.data ++ frame.trailer } enc VMAC_HDR_DATA
      seq ∈ received

theorem transfer_eq (order : ByteOrder) {bucket : BucketOf} {enc : U64} {nodes : Stream}
    {seq : U16} {vmacr : EncodingRx} {frame : Transfer} {reception : Reception}
    (counter : CounterAt bucket enc nodes.1 seq)
    (found : nodes.2.findRx bucket enc = some vmacr) (passes : Passes frame)
    (received : vmacr.receiveData seq frame.rx.jiffies = .ok reception) :
    ∃ sender actions, transfer bucket order enc nodes frame =
        .ok ((sender, nodes.2.writeRx bucket enc reception.entry), actions) ∧
      CounterAt bucket enc sender (seq + 1) ∧
      (HandedOnce enc frame actions ↔ reception.delivered = true) := by
  obtain ⟨sender, sent, skb, sending, counter', uploaded, bytes⟩ :=
    vmacTx_data bucket order enc nodes.1 seq counter frame.tx passes.entry passes.queued
      frame.skb frame.tmprate frame.seqtmp
  obtain ⟨actions, receiving, count, among⟩ :=
    vmacRx_data_once bucket order enc nodes.2 vmacr found frame.rx frame.addr seq
      (frame.skb.data ++ frame.trailer)
      (by rw [List.length_append, passes.trailer]; omega) reception received
  refine ⟨sender, actions, ?_, counter', ?_⟩
  · refine bind_eq_ok_iff.mpr ⟨(sender, sent), sending, ?_⟩
    dsimp only
    rw [uploaded]
    refine bind_eq_ok_iff.mpr
      ⟨(nodes.2.writeRx bucket enc reception.entry, actions), ?_, rfl⟩
    rw [bytes, dataFrame_append]
    exact receiving
  · constructor
    · rintro ⟨once, _⟩
      rw [count] at once
      by_contra dropped
      rw [if_neg dropped] at once
      cases once
    · intro delivered
      rw [if_pos delivered] at count
      exact ⟨count, seq, among delivered⟩

/-! ### Before the wrap -/

def firstNumbers (count : Nat) : List U16 := (List.range count).map (BitVec.ofNat 16)

theorem firstNumbers_succ (count : Nat) :
    firstNumbers (count + 1) = firstNumbers count ++ [BitVec.ofNat 16 count] := by
  unfold firstNumbers
  rw [List.range_succ, List.map_append, List.map_singleton]

theorem not_mem_firstNumbers {count : Nat} (small : count < 65536) :
    BitVec.ofNat 16 count ∉ firstNumbers count := by
  intro member
  obtain ⟨earlier, inside, same⟩ := List.mem_map.mp member
  have below := List.mem_range.mp inside
  bv_omega

structure Streaming (bucket : BucketOf) (enc : U64) (count : Nat) (nodes : Stream) : Prop where
  counter : CounterAt bucket enc nodes.1 (BitVec.ofNat 16 count)
  receiver : ∃ vmacr, nodes.2.findRx bucket enc = some vmacr ∧
    WindowExact vmacr (firstNumbers count) ∧ vmacr.latest.toNat = count - 1

theorem Streaming.step (order : ByteOrder) {bucket : BucketOf} {enc : U64} {count : Nat}
    {nodes : Stream} (streaming : Streaming bucket enc count nodes) (small : count < 65536)
    {frame : Transfer} (passes : Passes frame) :
    ∃ next actions, transfer bucket order enc nodes frame = .ok (next, actions) ∧
      Streaming bucket enc (count + 1) next ∧ HandedOnce enc frame actions := by
  obtain ⟨vmacr, found, exact_, latest⟩ := streaming.receiver
  have number : (BitVec.ofNat 16 count).toNat = count := by bv_omega
  have near : vmacr.latest.toNat < (BitVec.ofNat 16 count).toNat + WINDOW := by
    rw [latest, number]
    simp only [WINDOW]
    omega
  obtain ⟨next, handling, done⟩ := exact_.receive_total
    { seq := BitVec.ofNat 16 count, jiffies := frame.rx.jiffies } near
  obtain ⟨kept, deliveredIff⟩ := exact_.step near done
  obtain ⟨reception, received, rfl, deliveredIs, _⟩ := receive_inv done
  have delivered : reception.delivered = true := by
    rw [← deliveredIs, deliveredIff]
    exact not_mem_firstNumbers small
  obtain ⟨sender, actions, transferred, counter, handed⟩ :=
    transfer_eq order streaming.counter found passes received
  refine ⟨_, actions, transferred, ⟨?_, reception.entry, ?_, ?_, ?_⟩, handed.mpr delivered⟩
  · rw [BitVec.ofNat_add]
    exact counter
  · exact findRx_writeRx bucket nodes.2 enc reception.entry
  · rw [firstNumbers_succ]
    exact kept
  · rcases receiveData_inv received with
      ⟨_, dropped, _⟩ | ⟨_, _, _, alpha, first, second, entry⟩
    · rw [dropped] at delivered
      cases delivered
    · rw [entry]
      have reached := opened_latest vmacr (BitVec.ofNat 16 count)
      dsimp only
      omega

/-! ### After the wrap -/

/-- The highest number cannot grow and every slot is marked. -/
structure Saturated (bucket : BucketOf) (enc : U64) (nodes : Stream) : Prop where
  counter : ∃ seq, CounterAt bucket enc nodes.1 seq
  receiver : ∃ vmacr, nodes.2.findRx bucket enc = some vmacr ∧
    vmacr.latest.toNat = 65535 ∧ ∀ position, vmacr.window.get position = 1

theorem Streaming.saturated {bucket : BucketOf} {enc : U64} {nodes : Stream}
    (streaming : Streaming bucket enc 65536 nodes) : Saturated bucket enc nodes := by
  obtain ⟨vmacr, found, exact_, latest⟩ := streaming.receiver
  refine ⟨⟨_, streaming.counter⟩, vmacr, found, latest, ?_⟩
  intro position
  -- 65535 is at offset 435 of its lap, so a slot above that was last used one lap earlier
  have last : ∃ recent, recent ≤ 65535 ∧ 65535 < recent + WINDOW ∧
      recent % WINDOW = position % WINDOW := by
    simp only [WINDOW]
    by_cases low : position % 700 ≤ 435
    · exact ⟨65100 + position % 700, by omega, by omega, by omega⟩
    · exact ⟨64400 + position % 700, by omega, by omega, by omega⟩
  obtain ⟨recent, below, near, same⟩ := last
  have arrived : recent ∈ (firstNumbers 65536).map BitVec.toNat := by
    refine List.mem_map.mpr ⟨BitVec.ofNat 16 recent, ?_, by bv_omega⟩
    exact List.mem_map_of_mem (List.mem_range.mpr (by omega))
  have marked := exact_.marks recent (by omega) (by omega)
  rw [if_pos arrived] at marked
  rw [← marked]
  exact congrArg vmacr.window ((SlotRing.slot_eq_iff _ _).mpr same.symm)

theorem Saturated.step (order : ByteOrder) {bucket : BucketOf} {enc : U64} {nodes : Stream}
    (saturated : Saturated bucket enc nodes) {frame : Transfer} (passes : Passes frame) :
    ∃ next actions, transfer bucket order enc nodes frame = .ok (next, actions) ∧
      Saturated bucket enc next ∧ ¬ HandedOnce enc frame actions := by
  obtain ⟨seq, counter⟩ := saturated.counter
  obtain ⟨vmacr, found, latest, marked⟩ := saturated.receiver
  have duplicate : vmacr.Duplicate seq := ⟨by bv_omega, marked seq.toNat⟩
  obtain ⟨reception, received⟩ := receiveData_total vmacr seq frame.rx.jiffies (Or.inl duplicate)
  obtain ⟨sender, actions, transferred, counter', handed⟩ :=
    transfer_eq order counter found passes received
  rcases receiveData_inv received with
    ⟨_, dropped, _, entry⟩ | ⟨fresh, _⟩
  · refine ⟨_, actions, transferred, ⟨⟨_, counter'⟩, reception.entry, ?_, ?_, ?_⟩, ?_⟩
    · exact findRx_writeRx bucket nodes.2 enc reception.entry
    · rw [entry]
      exact latest
    · rw [entry]
      exact marked
    · rw [handed, dropped]
      exact Bool.false_ne_true
  · exact absurd duplicate fresh

/-! ### Streams of any length -/

theorem Streaming.run {bucket : BucketOf} (order : ByteOrder) {enc : U64} {count : Nat}
    {nodes : Stream} (streaming : Streaming bucket enc count nodes) (frames : List Transfer)
    (small : count + frames.length ≤ 65536) (passes : ∀ frame ∈ frames, Passes frame) :
    ∃ last outputs, run (transfer bucket order enc) nodes frames = .ok (last, outputs) ∧
      Streaming bucket enc (count + frames.length) last ∧
      ∀ report ∈ outputs, HandedOnce enc report.1 report.2 := by
  induction frames generalizing nodes count with
  | nil =>
      refine ⟨nodes, [], rfl, streaming, ?_⟩
      intro report impossible
      cases impossible
  | cons frame rest ih =>
      rw [List.length_cons] at small
      obtain ⟨next, actions, first, streaming', handed⟩ :=
        streaming.step order (by omega) (passes frame List.mem_cons_self)
      obtain ⟨last, outputs, tail, streaming'', later⟩ := ih streaming' (by omega)
        (fun other among => passes other (List.mem_cons_of_mem _ among))
      refine ⟨last, (frame, actions) :: outputs, FallibleRun.run_cons_ok first tail, ?_, ?_⟩
      · rw [List.length_cons, Nat.add_comm rest.length 1, ← Nat.add_assoc]
        exact streaming''
      · intro report among
        rcases List.mem_cons.mp among with rfl | old
        · exact handed
        · exact later report old

theorem Saturated.run {bucket : BucketOf} (order : ByteOrder) {enc : U64} {nodes : Stream}
    (saturated : Saturated bucket enc nodes) (frames : List Transfer)
    (passes : ∀ frame ∈ frames, Passes frame) :
    ∃ last outputs, run (transfer bucket order enc) nodes frames = .ok (last, outputs) ∧
      ∀ report ∈ outputs, ¬ HandedOnce enc report.1 report.2 := by
  induction frames generalizing nodes with
  | nil =>
      refine ⟨nodes, [], rfl, ?_⟩
      intro report impossible
      cases impossible
  | cons frame rest ih =>
      obtain ⟨next, actions, first, saturated', dropped⟩ :=
        saturated.step order (passes frame List.mem_cons_self)
      obtain ⟨last, outputs, tail, later⟩ := ih saturated'
        (fun other among => passes other (List.mem_cons_of_mem _ among))
      refine ⟨last, (frame, actions) :: outputs, FallibleRun.run_cons_ok first tail, ?_⟩
      intro report among
      rcases List.mem_cons.mp among with rfl | old
      · exact dropped
      · exact later report old

structure StreamStart (bucket : BucketOf) (enc : U64) (raw : EncodingRx) (nodes : Stream) :
    Prop where
  counter : CounterAt bucket enc nodes.1 0
  entry : nodes.2.findRx bucket enc = some (raw.create enc)
  clear : ∀ position, raw.window.get position = 0

theorem StreamStart.streaming {bucket : BucketOf} {enc : U64} {raw : EncodingRx}
    {nodes : Stream} (start : StreamStart bucket enc raw nodes) :
    Streaming bucket enc 0 nodes where
  counter := start.counter
  receiver := ⟨raw.create enc, start.entry, WindowExact.create raw enc (start.clear 0), rfl⟩

/-- The stream runs through; the first 65536 frames are handed over, the others are not. -/
theorem stream_split (bucket : BucketOf) (order : ByteOrder) (enc : U64) (raw : EncodingRx)
    (nodes : Stream) (start : StreamStart bucket enc raw nodes) (frames : List Transfer)
    (passes : ∀ frame ∈ frames, Passes frame) :
    ∃ last early late, run (transfer bucket order enc) nodes frames =
        .ok (last, early ++ late) ∧
      late.length = frames.length - 65536 ∧
      (∀ report ∈ early, HandedOnce enc report.1 report.2) ∧
      ∀ report ∈ late, ¬ HandedOnce enc report.1 report.2 := by
  have front : ∀ frame ∈ frames.take 65536, Passes frame :=
    fun frame among => passes frame (List.mem_of_mem_take among)
  obtain ⟨middle, early, first, streaming, handed⟩ :=
    start.streaming.run order (frames.take 65536)
      (by rw [Nat.zero_add, List.length_take]; exact Nat.min_le_left _ _) front
  rcases Nat.lt_or_ge 65536 frames.length with long | short
  · rw [List.length_take, Nat.min_eq_left long.le, Nat.zero_add] at streaming
    obtain ⟨last, late, second, dropped⟩ :=
      streaming.saturated.run order (frames.drop 65536)
        (fun frame among => passes frame (List.mem_of_mem_drop among))
    have whole : run (transfer bucket order enc) nodes
        (frames.take 65536 ++ frames.drop 65536) = .ok (last, early ++ late) := by
      rw [FallibleRun.run_append, first]
      simp only [second]
    rw [List.take_append_drop] at whole
    have inputs := congrArg List.length (FallibleRun.run_inputs second)
    rw [List.length_map, List.length_drop] at inputs
    exact ⟨last, early, late, whole, inputs, handed, dropped⟩
  · rw [List.take_of_length_le short] at first
    refine ⟨middle, early, [], ?_, ?_, handed, ?_⟩
    · rw [List.append_nil]
      exact first
    · rw [List.length_nil]
      omega
    · intro report impossible
      cases impossible

/-- Every frame of a stream is handed to `nl_send` once exactly when the stream has at most
65536 frames. -/
theorem stream_handed_once_iff (bucket : BucketOf) (order : ByteOrder) (enc : U64)
    (raw : EncodingRx) (nodes : Stream) (start : StreamStart bucket enc raw nodes)
    (frames : List Transfer) (passes : ∀ frame ∈ frames, Passes frame) :
    ∃ last outputs, run (transfer bucket order enc) nodes frames = .ok (last, outputs) ∧
      ((∀ report ∈ outputs, HandedOnce enc report.1 report.2) ↔ frames.length ≤ 65536) := by
  obtain ⟨last, early, late, done, length, handed, dropped⟩ :=
    stream_split bucket order enc raw nodes start frames passes
  refine ⟨last, early ++ late, done, ?_⟩
  constructor
  · intro all
    have none_ : late = [] := by
      apply List.eq_nil_iff_forall_not_mem.mpr
      intro report among
      exact dropped report among (all report (List.mem_append_right _ among))
    rw [none_, List.length_nil] at length
    omega
  · intro short report among
    rcases List.mem_append.mp among with old | new
    · exact handed report old
    · have none_ : late = [] := List.eq_nil_of_length_eq_zero (by omega)
      rw [none_] at new
      cases new

def freshNodes : Stream :=
  (Tables.init, Tables.init.addRx (fun _ => 0) (EncodingRx.zeroed.create 7))

theorem freshNodes_start : StreamStart (fun _ => 0) 7 EncodingRx.zeroed freshNodes where
  counter := Or.inl ⟨rfl, rfl⟩
  entry := rfl
  clear := fun _ => rfl

def emptyTransfer : Transfer :=
  { skb := { addr := 1, data := [] }, tmprate := 0, seqtmp := 0
    tx := { rawRx := none, rawTx := some EncodingTx.zeroed, copy := some 2, entry := true }
    addr := 3, trailer := [0, 0, 0, 0]
    rx :=
      { jiffies := 1, pidt := -1, strayRate := 0, message := true, request := true, mgmt := true
        status := { bw40 := false, shortGi := false, ht := false, rateIdx := 0, signal := 0 }
        dack := { copies := some, entries := fun _ => true } } }

theorem emptyTransfer_passes (count : Nat) :
    ∀ frame ∈ List.replicate count emptyTransfer, Passes frame := by
  intro frame among
  rw [List.eq_of_mem_replicate among]
  exact ⟨rfl, rfl, rfl⟩

theorem stream_handed_once_iff_three :
    ∃ last outputs,
      run (transfer (fun _ => 0) .little 7) freshNodes (List.replicate 3 emptyTransfer) =
        .ok (last, outputs) ∧
      ((∀ report ∈ outputs, HandedOnce 7 report.1 report.2) ↔
        (List.replicate 3 emptyTransfer).length ≤ 65536) :=
  stream_handed_once_iff (fun _ => 0) .little 7 EncodingRx.zeroed freshNodes freshNodes_start
    (List.replicate 3 emptyTransfer) (emptyTransfer_passes 3)

/-- Of 65537 frames the last one is dropped. -/
theorem stream_not_handed_once :
    ∃ last outputs,
      run (transfer (fun _ => 0) .little 7) freshNodes (List.replicate 65537 emptyTransfer) =
        .ok (last, outputs) ∧
      ¬ ∀ report ∈ outputs, HandedOnce 7 report.1 report.2 := by
  obtain ⟨last, early, late, done, length, _, dropped⟩ :=
    stream_split (fun _ => 0) .little 7 EncodingRx.zeroed freshNodes freshNodes_start
      (List.replicate 65537 emptyTransfer) (emptyTransfer_passes 65537)
  rw [List.length_replicate] at length
  refine ⟨last, early ++ late, done, ?_⟩
  intro all
  obtain ⟨report, rest, same⟩ := List.exists_cons_of_length_pos
    (show 0 < late.length by omega)
  have among : report ∈ late := same ▸ List.mem_cons_self
  exact dropped report among (all report (List.mem_append_right _ among))

end VMac
