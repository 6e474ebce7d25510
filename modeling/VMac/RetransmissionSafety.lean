/-
One encoding between a sender entry and a receiver entry over a channel that loses,
duplicates, reorders and delays.

A hole lists positions whose slot was clear when the DACK was built.  An accepted position has
a clear slot only when it is a full window behind the highest number, and by then the sender's
own guard excludes it.
-/
import VMac.DackSlot
import VMac.ReceiveWindow
import VMac.TransmitEntry

set_option autoImplicit false

namespace VMac

open FallibleRun (run)

/-! ### The two parties and the channel -/

/-- The bytes of a DACK, and the numbers that the receiver had accepted when it was built. -/
structure BuiltDack where
  frame : List Byte
  accepted : List U16

/-- Frames and DACKs stay in the channel: one that is never taken again is lost, one that is
taken late is delayed, one that is taken twice is duplicated. -/
structure Link where
  tx : EncodingTx
  rx : EncodingRx
  frames : List U16
  requests : List U16
  dacks : List BuiltDack
  accepted : List U16

inductive LinkEvent
  /-- a data send in `vmac_tx` -/
  | send (skb : SkBuff) (answer : Option Nat)
  /-- a data frame from the channel in `vmac_rx` -/
  | data (index : Nat) (jiffies : U64)
  /-- `dackgen` handles a request -/
  | request (index : Nat) (random : U64) (answer : Option Nat) (locked : Bool)
  /-- the DACK timer of the receiver expires -/
  | timer (locked : Bool)
  /-- a DACK from the channel in `vmac_rx`, with what the driver appended to it -/
  | dack (index : Nat) (answers : DackAnswers) (addr : Nat) (trailer : List Byte)

def LinkEvent.isSend : LinkEvent → Bool
  | .send _ _ => true
  | _ => false

/-- A DACK at the sender: its header, the buffer that the holes are read from, the counter of
the sender at that moment and what the sender did. -/
structure DackReport where
  dack : BuiltDack
  ddr : VmacDACK
  skb : SkBuff
  seq : U16
  actions : List Action

namespace Link

def start (rawTx : EncodingTx) (rawRx : EncodingRx) (enc : U64) : Link :=
  { tx := rawTx.create enc, rx := rawRx.create enc, frames := [], requests := [], dacks := [],
    accepted := [] }

def built (link : Link) (order : ByteOrder) (enc : U64) (round : U16) (random : U64)
    (answer : Option Nat) : List BuiltDack :=
  (link.rx.prepare order enc round random answer).2.toList.map
    (fun prepared => { frame := prepared.skb.data, accepted := link.accepted })

def step (order : ByteOrder) (enc : U64) (link : Link) :
    LinkEvent → Except Fault (Link × Option DackReport)
  | .send skb answer =>
      .ok ({ link with
        tx := (link.tx.sendData order skb enc answer).entry
        frames := link.frames ++ [link.tx.seq] }, none)
  | .data index jiffies =>
      match link.frames[index]? with
      | none => .ok (link, none)
      | some seq => do
          let reception ← link.rx.receiveData seq jiffies
          return ({ link with
            rx := reception.entry
            requests := link.requests ++ reception.request.toList
            accepted := if reception.delivered then seq :: link.accepted else link.accepted },
            none)
  | .request index random answer locked =>
      match link.requests[index]? with
      | none => .ok (link, none)
      | some round =>
          .ok ({ link with
            rx := (link.rx.prepDACK order enc round random answer locked).1
            requests := link.requests.eraseIdx index
            dacks := link.dacks ++ link.built order enc round random answer }, none)
  | .timer locked =>
      if link.rx.dackTimer.isSome then
        .ok ({ link with rx := (link.rx.sendDACK locked).1 }, none)
      else .ok (link, none)
  | .dack index answers addr trailer =>
      match link.dacks[index]? with
      | none => .ok (link, none)
      | some dack => do
          let skb := SkBuff.pull { addr := addr, data := dack.frame ++ trailer } sizeofVmacHdr
          let ddr ← VmacDACK.read order skb.data
          let holes := skb.pull sizeofVmacDACK
          let (tx, actions) ← link.tx.receiveDack order answers ddr holes
          return ({ link with tx := tx },
            some { dack := dack, ddr := ddr, skb := holes, seq := link.tx.seq,
                   actions := actions })

end Link

/-- The guards of the loop over the positions of a DACK, other than the pacing. -/
def LetsThrough (order : ByteOrder) (report : DackReport) (position : U16) : Prop :=
  Named (namedHoles order report.ddr.holes.toNat report.skb.data) position ∧
    position < report.seq ∧ EncodingTx.oldest report.seq ≤ position.toNat

/-! ### Accepted numbers keep their marks -/

structure MarksKept (vmacr : EncodingRx) (accepted : List U16) : Prop where
  bounded : ∀ seq ∈ accepted, seq.toNat ≤ vmacr.latest.toNat
  marked : ∀ seq ∈ accepted, vmacr.latest.toNat < seq.toNat + WINDOW →
    vmacr.window.get seq.toNat = 1

theorem mark_get_of_one (vmacr : EncodingRx) (seq : U16) (position : Nat)
    (already : vmacr.window.get position = 1) : (vmacr.mark seq).window.get position = 1 := by
  unfold EncodingRx.mark
  dsimp only
  split
  · rw [windowIndex_eq_slot]
    unfold SlotRing.get
    by_cases here : SlotRing.slot WINDOW position = SlotRing.slot WINDOW seq.toNat
    · rw [here, Function.update_self]
    · rw [Function.update_of_ne here]
      exact already
  · exact already

theorem receiveData_marks {vmacr : EncodingRx} {seq : U16} {jiffies : U64} {result : Reception}
    {accepted : List U16} (done : vmacr.receiveData seq jiffies = .ok result)
    (kept : MarksKept vmacr accepted) :
    MarksKept result.entry (if result.delivered then seq :: accepted else accepted) := by
  rcases receiveData_inv done with
    ⟨_, dropped, _, entry⟩ | ⟨_, delivered, _, alpha, first, second, entry⟩
  · rw [dropped, entry]
    exact ⟨kept.bounded, kept.marked⟩
  · have reached := opened_latest vmacr seq
    rw [delivered, entry, if_pos rfl]
    constructor
    case bounded =>
      intro other among
      change other.toNat ≤ (vmacr.opened seq).latest.toNat
      rcases List.mem_cons.mp among with rfl | old
      · omega
      · have below := kept.bounded other old
        omega
    case marked =>
      intro other among recent
      change (vmacr.opened seq).latest.toNat < other.toNat + WINDOW at recent
      change ((vmacr.opened seq).mark seq).window.get other.toNat = 1
      rcases List.mem_cons.mp among with rfl | old
      · rw [EncodingRx.mark_window _ _ recent, SlotRing.get_put_same]
      · -- an older number is still in the lap, so the loop that opened it left its mark
        have below := kept.bounded other old
        apply mark_get_of_one
        rw [opened_get vmacr seq other.toNat (by omega) recent, if_pos below]
        exact kept.marked other old (by omega)

/-! ### The invariant of the link -/

/-- The DACK is one that `prepDACK` writes, and every accepted number inside one of its holes
is a full window behind the sender. -/
def DackSound (order : ByteOrder) (enc : U64) (seq : U16) (dack : BuiltDack) : Prop :=
  ∃ round holes, dack.frame = dackBytes order enc round holes ∧ holes.length ≤ HOLES_MAX ∧
    ∀ position : U16, Named holes position → position ∈ dack.accepted →
      position.toNat + WINDOW < seq.toNat

structure LinkSound (order : ByteOrder) (enc : U64) (sent : Nat) (link : Link) : Prop where
  counter : link.tx.seq.toNat = sent
  frames : ∀ seq ∈ link.frames, seq < link.tx.seq
  behind : link.rx.latest = 0 ∨ link.rx.latest < link.tx.seq
  stray : link.rx.windowBefore ≠ 0
  marks : MarksKept link.rx link.accepted
  dacks : ∀ dack ∈ link.dacks, DackSound order enc link.tx.seq dack

theorem DackSound.mono {order : ByteOrder} {enc : U64} {early late : U16} {dack : BuiltDack}
    (sound : DackSound order enc early dack) (later : early ≤ late) :
    DackSound order enc late dack := by
  obtain ⟨round, holes, frame, short, old⟩ := sound
  refine ⟨round, holes, frame, short, ?_⟩
  intro position named accepted
  have distance := old position named accepted
  bv_omega

theorem linkSound_start (order : ByteOrder) (enc : U64) (rawTx : EncodingTx)
    (rawRx : EncodingRx) (stray : rawRx.windowBefore ≠ 0) :
    LinkSound order enc 0 (Link.start rawTx rawRx enc) where
  counter := rfl
  frames := by
    intro seq impossible
    cases impossible
  behind := Or.inl rfl
  stray := stray
  marks := by
    constructor
    · intro seq impossible
      cases impossible
    · intro seq impossible
      cases impossible
  dacks := by
    intro dack impossible
    cases impossible

theorem linkSound_send {order : ByteOrder} {enc : U64} {sent : Nat} {link : Link}
    (skb : SkBuff) (answer : Option Nat) (room : sent + 1 < 65536)
    (sound : LinkSound order enc sent link) :
    LinkSound order enc (sent + 1)
      { link with
        tx := (link.tx.sendData order skb enc answer).entry
        frames := link.frames ++ [link.tx.seq] } := by
  have counted := sound.counter
  have next : (link.tx.seq + 1).toNat = sent + 1 := by bv_omega
  have grows : link.tx.seq < link.tx.seq + 1 := by bv_omega
  constructor
  case counter => exact next
  case frames =>
    intro seq among
    change seq < link.tx.seq + 1
    rcases List.mem_append.mp among with old | new
    · have below := sound.frames seq old
      bv_omega
    · rw [List.mem_singleton.mp new]
      exact grows
  case behind =>
    change link.rx.latest = 0 ∨ link.rx.latest < link.tx.seq + 1
    rcases sound.behind with zero | below
    · exact Or.inl zero
    · right
      bv_omega
  case stray => exact sound.stray
  case marks => exact sound.marks
  case dacks =>
    intro dack among
    exact (sound.dacks dack among).mono (by change link.tx.seq ≤ link.tx.seq + 1; bv_omega)

theorem linkSound_data {order : ByteOrder} {enc : U64} {sent : Nat} {link : Link} {seq : U16}
    {jiffies : U64} {reception : Reception} (requests : List U16) (inFlight : seq ∈ link.frames)
    (received : link.rx.receiveData seq jiffies = .ok reception)
    (sound : LinkSound order enc sent link) :
    LinkSound order enc sent
      { link with
        rx := reception.entry
        requests := requests
        accepted := if reception.delivered then seq :: link.accepted else link.accepted } where
  counter := sound.counter
  frames := sound.frames
  behind := by
    have sentBefore := sound.frames seq inFlight
    have before := sound.behind
    have reached := opened_latest link.rx seq
    rcases receiveData_inv received with
      ⟨_, _, _, entry⟩ | ⟨_, _, _, alpha, first, second, entry⟩
    · simp only [entry]
      exact before
    · simp only [entry]
      bv_omega
  stray := by
    rcases receiveData_inv received with
      ⟨_, _, _, entry⟩ | ⟨_, _, _, alpha, first, second, entry⟩
    · simp only [entry]
      exact sound.stray
    · simp only [entry]
      exact sound.stray
  marks := receiveData_marks received sound.marks
  dacks := sound.dacks

/-- A DACK that is built now reports an accepted number only when it is a window behind. -/
theorem built_sound {order : ByteOrder} {enc : U64} {sent : Nat} {link : Link}
    (sound : LinkSound order enc sent link) (round : U16) (random : U64) (answer : Option Nat)
    (dack : BuiltDack) (among : dack ∈ link.built order enc round random answer) :
    DackSound order enc link.tx.seq dack := by
  cases answer with
  | none => cases among
  | some addr =>
      have dackIs : dack =
          { frame := dackBytes order enc round (link.rx.scanHoles round).holes
            accepted := link.accepted } := List.mem_singleton.mp among
      subst dackIs
      refine ⟨round, _, rfl, link.rx.scanHoles_length round, ?_⟩
      rintro position ⟨hole, reported, left, right⟩ accepted
      have clear := (link.rx.scanHoles_missing round sound.stray hole reported position.toNat
        ⟨left, right⟩).1
      have below := sound.marks.bounded position accepted
      have marked := sound.marks.marked position accepted
      have old : ¬ link.rx.latest.toNat < position.toNat + WINDOW := by
        intro recent
        rw [marked recent] at clear
        exact absurd clear (by decide)
      have behind := sound.behind
      simp only [WINDOW] at old ⊢
      bv_omega

theorem linkSound_request {order : ByteOrder} {enc : U64} {sent : Nat} {link : Link}
    (round : U16) (random : U64) (answer : Option Nat) (locked : Bool) (requests : List U16)
    (sound : LinkSound order enc sent link) :
    LinkSound order enc sent
      { link with
        rx := (link.rx.prepDACK order enc round random answer locked).1
        requests := requests
        dacks := link.dacks ++ link.built order enc round random answer } := by
  obtain ⟨_, _, _, _, prepared⟩ := link.rx.prepDACK_inv order enc round random answer locked
  rw [prepared]
  constructor
  case counter => exact sound.counter
  case frames => exact sound.frames
  case behind => exact sound.behind
  case stray => exact sound.stray
  case marks => exact ⟨sound.marks.bounded, sound.marks.marked⟩
  case dacks =>
    intro dack among
    rcases List.mem_append.mp among with old | new
    · exact sound.dacks dack old
    · exact built_sound sound round random answer dack new

theorem sendDACK_window (vmac : EncodingRx) (locked : Bool) :
    (vmac.sendDACK locked).1.window = vmac.window ∧
      (vmac.sendDACK locked).1.windowBefore = vmac.windowBefore ∧
      (vmac.sendDACK locked).1.latest = vmac.latest := by
  unfold EncodingRx.sendDACK
  split
  · exact ⟨rfl, rfl, rfl⟩
  · split
    · exact ⟨rfl, rfl, rfl⟩
    · exact ⟨rfl, rfl, rfl⟩

theorem linkSound_timer {order : ByteOrder} {enc : U64} {sent : Nat} {link : Link}
    (locked : Bool) (sound : LinkSound order enc sent link) :
    LinkSound order enc sent { link with rx := (link.rx.sendDACK locked).1 } := by
  obtain ⟨window, stray, latest⟩ := sendDACK_window link.rx locked
  constructor
  case counter => exact sound.counter
  case frames => exact sound.frames
  case behind => rw [latest]; exact sound.behind
  case stray => rw [stray]; exact sound.stray
  case marks =>
    constructor
    · rw [latest]
      exact sound.marks.bounded
    · rw [latest, window]
      exact sound.marks.marked
  case dacks => exact sound.dacks

/-! ### A DACK at the sender -/

def RetransmitsOnly (allowed : U16 → Prop) (actions : List Action) : Prop :=
  ∀ position frame queued, Action.retrx position frame queued ∈ actions → allowed position

theorem turn_retransmitsOnly {allowed : U16 → Prop} {answers : DackAnswers}
    {seq round le : U16} {loop next : DackLoop}
    (permits : EncodingTx.oldest seq ≤ le.toNat → allowed le)
    (before : RetransmitsOnly allowed loop.actions)
    (turned : loop.turn answers seq round le = .ok (some next)) :
    RetransmitsOnly allowed next.actions := by
  intro position frame queued among
  rcases DackLoop.turn_action turned among with earlier | ⟨due, _, ⟨_, _, _, copy⟩ | ⟨_, _, again⟩⟩
  · exact before position frame queued earlier
  · cases copy
  · cases again
    exact permits due.2

theorem receiveDack_retransmits {order : ByteOrder} {vmact next : EncodingTx}
    {answers : DackAnswers} {ddr : VmacDACK} {skb : SkBuff} {actions : List Action}
    (done : vmact.receiveDack order answers ddr skb = .ok (next, actions)) :
    next.seq = vmact.seq ∧
      RetransmitsOnly
        (fun position => Named (namedHoles order ddr.holes.toNat skb.data) position ∧
          position < vmact.seq ∧ EncodingTx.oldest vmact.seq ≤ position.toNat) actions := by
  obtain ⟨last, looped, finished⟩ := bind_eq_ok_iff.mp done
  cases finished
  refine DackLoop.holes_invariant
    (fun loop => loop.entry.seq = vmact.seq ∧
      RetransmitsOnly
        (fun position => Named (namedHoles order ddr.holes.toNat skb.data) position ∧
          position < vmact.seq ∧ EncodingTx.oldest vmact.seq ≤ position.toNat) loop.actions)
    ?_ ⟨rfl, ?_⟩ looped
  · intro loop next le below named state turned
    exact ⟨(DackLoop.turn_keeps turned).seq.trans state.1,
      turn_retransmitsOnly (fun recent => ⟨named, below, recent⟩) state.2 turned⟩
  · intro position frame queued impossible
    cases impossible

theorem dackBytes_read (order : ByteOrder) (enc : U64) (round : U16) (holes : List VmacHole)
    (short : holes.length ≤ HOLES_MAX) (addr : Nat) (trailer : List Byte) :
    ∃ ddr : VmacDACK,
      VmacDACK.read order (SkBuff.pull
        { addr := addr, data := dackBytes order enc round holes ++ trailer }
          sizeofVmacHdr).data = .ok ddr ∧
      namedHoles order ddr.holes.toNat (SkBuff.pull (SkBuff.pull
        { addr := addr, data := dackBytes order enc round holes ++ trailer }
          sizeofVmacHdr) sizeofVmacDACK).data = holes := by
  have count : (BitVec.ofNat 16 holes.length).toNat = holes.length := by
    rw [BitVec.toNat_ofNat]
    simp only [HOLES_MAX] at short
    omega
  unfold dackBytes
  rw [List.append_assoc, List.append_assoc,
    SkBuff.pull_append _ _ _ _ (VmacHdr.bytes_length order _)]
  refine ⟨_, VmacDACK.read_bytes order _ _, ?_⟩
  rw [SkBuff.pull_append _ _ _ _ (VmacDACK.bytes_length order _)]
  dsimp only
  rw [count]
  exact namedHoles_bytes order holes trailer

/-- What a handled DACK must satisfy: whatever its guards let through had not been accepted
when it was built, and they are all that it retransmits. -/
structure ReportSound (order : ByteOrder) (report : DackReport) : Prop where
  missing : ∀ position, LetsThrough order report position →
    position ∉ report.dack.accepted
  guarded : RetransmitsOnly (LetsThrough order report) report.actions

theorem reportSound_of_dack {order : ByteOrder} {enc : U64} {sent : Nat} {link : Link}
    {dack : BuiltDack} {answers : DackAnswers} {addr : Nat} {trailer : List Byte}
    {ddr : VmacDACK} {tx : EncodingTx} {actions : List Action}
    (sound : LinkSound order enc sent link) (inFlight : dack ∈ link.dacks)
    (read : VmacDACK.read order (SkBuff.pull
      { addr := addr, data := dack.frame ++ trailer } sizeofVmacHdr).data = .ok ddr)
    (handled : link.tx.receiveDack order answers ddr (SkBuff.pull (SkBuff.pull
      { addr := addr, data := dack.frame ++ trailer } sizeofVmacHdr) sizeofVmacDACK) =
        .ok (tx, actions)) :
    ReportSound order
      { dack := dack, ddr := ddr
        skb := SkBuff.pull (SkBuff.pull { addr := addr, data := dack.frame ++ trailer }
          sizeofVmacHdr) sizeofVmacDACK
        seq := link.tx.seq, actions := actions } where
  missing := by
    obtain ⟨round, holes, frame, short, old⟩ := sound.dacks dack inFlight
    obtain ⟨other, readOther, decoded⟩ :=
      dackBytes_read order enc round holes short addr trailer
    rw [← frame] at readOther decoded
    have same : other = ddr := Except.ok.inj (readOther.symm.trans read)
    subst same
    rintro position ⟨named, below, recent⟩ accepted
    dsimp only at named below recent
    rw [decoded] at named
    have distance := old position named accepted
    unfold EncodingTx.oldest at recent
    simp only [WINDOW, WINDOW_TX] at distance recent
    split at recent <;> omega
  guarded := (receiveDack_retransmits handled).2

/-! ### Runs -/

theorem linkSound_step {order : ByteOrder} {enc : U64} {sent : Nat} {link next : Link}
    {event : LinkEvent} {report : Option DackReport}
    (room : sent + (if event.isSend then 1 else 0) < 65536)
    (sound : LinkSound order enc sent link)
    (stepped : link.step order enc event = .ok (next, report)) :
    LinkSound order enc (sent + if event.isSend then 1 else 0) next ∧
      ∀ handled, report = some handled → ReportSound order handled := by
  have silent : ∀ handled : DackReport, none = some handled → ReportSound order handled := by
    intro handled impossible
    cases impossible
  cases event with
  | send skb answer =>
      cases stepped
      exact ⟨linkSound_send skb answer room sound, silent⟩
  | data index jiffies =>
      cases flying : link.frames[index]? with
      | none =>
          simp only [Link.step, flying] at stepped
          cases stepped
          exact ⟨sound, silent⟩
      | some seq =>
          simp only [Link.step, flying] at stepped
          obtain ⟨reception, received, finished⟩ := bind_eq_ok_iff.mp stepped
          cases finished
          exact ⟨linkSound_data _ (List.mem_of_getElem? flying) received sound, silent⟩
  | request index random answer locked =>
      cases waiting : link.requests[index]? with
      | none =>
          simp only [Link.step, waiting] at stepped
          cases stepped
          exact ⟨sound, silent⟩
      | some round =>
          simp only [Link.step, waiting] at stepped
          cases stepped
          exact ⟨linkSound_request round random answer locked _ sound, silent⟩
  | timer locked =>
      simp only [Link.step] at stepped
      split at stepped
      · cases stepped
        exact ⟨linkSound_timer locked sound, silent⟩
      · cases stepped
        exact ⟨sound, silent⟩
  | dack index answers addr trailer =>
      cases flying : link.dacks[index]? with
      | none =>
          simp only [Link.step, flying] at stepped
          cases stepped
          exact ⟨sound, silent⟩
      | some dack =>
          simp only [Link.step, flying] at stepped
          obtain ⟨ddr, read, rest⟩ := bind_eq_ok_iff.mp stepped
          obtain ⟨⟨tx, actions⟩, handled, finished⟩ := bind_eq_ok_iff.mp rest
          cases finished
          have sameSeq : tx.seq = link.tx.seq := (receiveDack_retransmits handled).1
          constructor
          · constructor
            case counter => exact (congrArg BitVec.toNat sameSeq).trans sound.counter
            case frames => rw [sameSeq]; exact sound.frames
            case behind => rw [sameSeq]; exact sound.behind
            case stray => exact sound.stray
            case marks => exact sound.marks
            case dacks => rw [sameSeq]; exact sound.dacks
          · intro report same
            cases same
            exact reportSound_of_dack sound (List.mem_of_getElem? flying) read handled

/-- No position that the sender lets through because of a DACK had been accepted when the DACK
was built. -/
theorem no_spurious_retransmission (order : ByteOrder) (enc : U64) (rawTx : EncodingTx)
    (rawRx : EncodingRx) (stray : rawRx.windowBefore ≠ 0) (events : List LinkEvent)
    (few : events.countP LinkEvent.isSend < 65536) (last : Link)
    (outputs : List (LinkEvent × Option DackReport))
    (done : run (Link.step order enc) (Link.start rawTx rawRx enc) events =
      .ok (last, outputs)) :
    ∀ event report, (event, some report) ∈ outputs → ReportSound order report := by
  have result := FallibleRun.run_reports_invariant
    (fun (link : Link) (reports : List (LinkEvent × Option DackReport)) =>
      (reports.map Prod.fst).countP LinkEvent.isSend < 65536 →
        LinkSound order enc ((reports.map Prod.fst).countP LinkEvent.isSend) link ∧
          ∀ event report, (event, some report) ∈ reports → ReportSound order report)
    (by
      intro link reports event next report holds _ stepped room
      rw [List.map_append, List.countP_append, List.map_singleton, List.countP_singleton]
        at room ⊢
      obtain ⟨sound, earlier⟩ := holds (by omega)
      obtain ⟨sound', handled⟩ := linkSound_step room sound stepped
      refine ⟨sound', ?_⟩
      intro event' report' among
      rcases List.mem_append.mp among with old | new
      · exact earlier event' report' old
      · cases List.mem_singleton.mp new
        exact handled report' rfl)
    (fun _ => ⟨linkSound_start order enc rawTx rawRx stray, fun _ _ impossible => by
      cases impossible⟩)
    (FallibleRun.Throughout.unconditional _ _) done
  rw [FallibleRun.run_inputs done] at result
  exact (result few).2

def oneLost : List LinkEvent :=
  List.replicate 6 (.send { addr := 1, data := [] } (some 2)) ++
    [.data 0 1, .data 1 2, .data 2 3, .data 4 4, .data 5 5, .request 0 0 (some 9) true,
      .timer true, .dack 0 { copies := some, entries := fun _ => true } 3 [0, 0, 0, 0]]

def strayRx : EncodingRx := { EncodingRx.zeroed with windowBefore := 1 }

theorem no_spurious_retransmission_oneLost :
    ∃ last outputs report,
      run (Link.step .little 7) (Link.start EncodingTx.zeroed strayRx 7) oneLost =
        .ok (last, outputs) ∧
      outputs.filterMap Prod.snd = [report] ∧ LetsThrough .little report 3 ∧
      report.dack.accepted = [5, 4, 2, 1, 0] ∧
      ∀ event handled, (event, some handled) ∈ outputs → ReportSound .little handled := by
  refine ⟨_, _, _, rfl, rfl, ?_, rfl, ?_⟩
  · refine ⟨⟨{ le := 3, re := 4 }, ?_, by decide, by decide⟩, by decide, by decide⟩
    exact List.mem_singleton_self _
  · exact no_spurious_retransmission .little 7 EncodingTx.zeroed strayRx (by decide) oneLost
      (by decide) _ _ rfl

end VMac
