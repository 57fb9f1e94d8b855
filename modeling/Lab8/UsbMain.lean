import Lab8.Lib.Log
import Lab8.UsbTd
/-!
# The USB program: `main` (main.c:33-563)

`main` is a loop with `goto`s: reset the controller, find the device, nine requests in a row, then reports of the
keyboard for ever. `Point` cuts it where it looks at what it has read; between two points it makes the calls
`Main.calls`, the last read of which gives the answer that `Main.next` takes. The delays and the texts printed are
left out, the reads that are made for a text are not.

| here | there |
| --- | --- |
| `softReset`, `step1`, `step2` | `UsbSoftReset` (usb.c:82-107), main.c:64-94, :108-124 |
| `.hotPlug` .. `.insert` | the label `USB_HOT_PLUG` to main.c:172 |
| `.send`, `.wait`, `.check` | a request and the loop that repeats it, `UsbWaitTDListDone`, the words at 0x0506 and 0x0508 |
| `.retryMsg` .. `.retryCount` | `UsbGetRetryCnt` (usb.c:552-570) |
| `.info` | main.c:327-355 |
| `.poll` .. `.removed` | the loop of main.c:469-560 |
-/

namespace Lab8.Usb

open Clocked IoHandler

def hpiMailbox : BitVec 8 := 1
def hpiStatus : BitVec 8 := 3
def hpiStatusSie1MsgFlag : BitVec 16 := 0x0010
def hpiSie2MsgAdr : BitVec 16 := 0x0148
def hpiIrqRoutingReg : BitVec 16 := 0x0142
def host1StatReg : BitVec 16 := 0xc090
def host2StatReg : BitVec 16 := 0xc0b0
def host1IrqEnReg : BitVec 16 := 0xc08c
def usb1CtlReg : BitVec 16 := 0xc08a
def husbPEOT : BitVec 16 := 0x01b4
def husbSie1InitInt : BitVec 16 := 0x0072
def husbResetInt : BitVec 16 := 0x0074
def commReset : BitVec 16 := 0xfa50
def commExecInt : BitVec 16 := 0xce01
def commAck : BitVec 16 := 0x0fed
def commIntNum : BitVec 16 := 0x01c2
/-- `COMM_R0` to `COMM_R13` -/
def commR (k : ℕ) : BitVec 16 := 0x01c4 + BitVec.ofNat 16 (2 * k)
/-- `A_DP_STAT | A_DM_STAT` -/
def noDevice : BitVec 16 := 0x3000

def softReset : List Call :=
  [.write hpiMailbox commReset, .read hpiMailbox, .read hpiStatus] ++ usbRead hpiSie1MsgAdr ++ usbWrite hpiSie1MsgAdr 0 ++
    usbRead hpiSie2MsgAdr ++ usbWrite hpiSie2MsgAdr 0 ++ usbWrite host1StatReg 0xffff ++ usbWrite host2StatReg 0xffff

def commRs (r0 : BitVec 16) : List Call :=
  (List.range 14).flatMap fun k => usbWrite (commR k) (if k = 0 then r0 else 0)

def step1 : List Call :=
  usbWrite hpiSie1MsgAdr 0 ++ usbWrite host1StatReg 0xffff ++ usbWrite husbPEOT 600 ++ usbWrite hpiIrqRoutingReg 0x0440 ++
    usbWrite host1IrqEnReg 0x0210 ++ commRs 0 ++ usbWrite commIntNum husbSie1InitInt ++ [.write hpiMailbox commExecInt]

def step2 : List Call := usbWrite commIntNum husbResetInt ++ commRs 0x003c ++ [.write hpiMailbox commExecInt]

inductive Point
  | hotPlug
  | sie1Status
  | sie1Ack
  /-- The mailbox once more, for the text, and back. -/
  | mailboxError
  | husbReset
  | detect
  | detectRetry (hotPlugCount : ℕ)
  | insert
  | send (f : Function)
  | wait (f : Function)
  | check (f : Function)
  | retryMsg (f : Function)
  | retryClear (f : Function)
  | retryStatus (f : Function)
  | retryCount (f : Function)
  | info
  | poll
  | pollWait
  | report
  | plugged
  | unplug (hotPlugCount : ℕ)
  | removed
deriving DecidableEq, Repr

structure Main where
  point : Point
  toggle : BitVec 8
  dataSize : BitVec 8
  /-- The keycode port. -/
  keycode : BitVec 16
deriving DecidableEq, Repr

namespace Main

/-- `if(toggle%2)` -/
def pollControl (s : Main) : BitVec 16 := if s.toggle.toNat % 2 = 1 then 0x0001 else 0x0041

def pollWords (s : Main) : List (BitVec 16) :=
  [0x051c, 0x000f &&& s.dataSize.setWidth 16, 0x0291, s.pollControl, 0x0013, 0x0000]

/-- What is called from a point on, to the next decision. -/
def calls (s : Main) : List Call :=
  match s.point with
  | .hotPlug => softReset ++ step1 ++ [.read hpiStatus]
  | .sie1Status => [.read hpiStatus]
  | .sie1Ack => [.read hpiMailbox]
  | .mailboxError => [.read hpiMailbox]
  | .husbReset => step2 ++ [.read hpiMailbox]
  | .detect | .detectRetry _ | .insert => usbRead usb1CtlReg
  | .send f => f.calls ++ [.read hpiStatus]
  | .wait _ => round
  | .check _ => usbRead 0x0506 ++ usbRead 0x0508
  | .retryMsg _ => .read hpiStatus :: usbRead hpiSie1MsgAdr
  | .retryClear _ => usbWrite hpiSie1MsgAdr 0 ++ [.read hpiStatus]
  | .retryStatus _ => [.read hpiStatus]
  | .retryCount _ => usbRead 0x0508
  | .info =>
    usbRead 0x056c ++ .write hpiAddr 0x0576 :: [0x073f, 0x8105, 0x0003, 0x0008, 0xac0a].map (Call.write hpiData) ++
      usbWrite husbSie1PCurrentTDPtr 0x0576 ++ usbRead 0x057c
  | .poll => tdList s.pollWords ++ [.read hpiStatus]
  | .pollWait => round
  | .report => usbRead 0x051e
  | .plugged | .unplug _ => usbRead usb1CtlReg
  | .removed => usbRead usb1CtlReg ++ usbRead usb1CtlReg ++ usbRead usb1CtlReg

def goto (s : Main) (p : Point) : Main := { s with point := p }

/-- `toggle++` and the top of the loop -/
def nextPoll (s : Main) : Main := { s with point := .poll, toggle := s.toggle + 1 }

def after (s : Main) : Function → Main
  | .setAddress => s.goto (.send .getDeviceDesc1)
  | .getDeviceDesc1 => s.goto (.send .getDeviceDesc2)
  | .getDeviceDesc2 => s.goto (.send .getConfigDesc1)
  | .getConfigDesc1 => s.goto (.send .getConfigDesc2)
  | .getConfigDesc2 => s.goto .info
  | .setConfig => s.goto (.send .classRequest)
  | .classRequest => s.goto (.send .getHidDesc)
  | .getHidDesc => s.goto (.send .getReportDesc)
  | .getReportDesc => s.nextPoll

def flagged (v : BitVec 16) : Bool := v &&& hpiStatusSie1MsgFlag != 0
def present (v : BitVec 16) : Bool := v &&& noDevice != 0

/-- Where the last value read leads. -/
def next (s : Main) (v : BitVec 16) : Main :=
  match s.point with
  | .hotPlug | .sie1Status => s.goto (if v = 0 then .sie1Status else .sie1Ack)
  | .sie1Ack => s.goto (if v = commAck then .husbReset else .mailboxError)
  | .mailboxError => s.goto .hotPlug
  | .husbReset => s.goto (if v = commAck then .detect else .mailboxError)
  | .detect => s.goto (if present v then .send .setAddress else .detectRetry 0)
  | .detectRetry k =>
    s.goto (if present v then .send .setAddress else if k + 1 < 5 then .detectRetry (k + 1) else .insert)
  | .insert => s.goto (if present v then .hotPlug else .insert)
  | .send f => s.goto (if flagged v then .wait f else .send f)
  | .wait f => s.goto (if v = husbTDListDone then .check f else .wait f)
  | .check f => if v = 0x03 then s.after f else s.goto (.retryMsg f)
  | .retryMsg f => s.goto (if v = husbTDListDone then .retryClear f else .retryCount f)
  | .retryClear f | .retryStatus f => s.goto (if flagged v then .retryCount f else .retryStatus f)
  | .retryCount f =>
    -- only the first request gives up at once
    if f = .setAddress then s.goto .hotPlug
    else if v = 0x03 then s.after f
    else s.goto (.retryMsg f)
  | .info => { s with point := .send .setConfig, dataSize := v.setWidth 8 }
  | .poll => s.goto (if flagged v then .pollWait else .poll)
  | .pollWait => s.goto (if v = husbTDListDone then .report else .pollWait)
  | .report => { s with point := .plugged, keycode := v }
  | .plugged => if present v then s.nextPoll else s.goto (.unplug 0)
  | .unplug k => if present v then s.nextPoll else s.goto (if k + 1 < 7 then .unplug (k + 1) else .removed)
  | .removed => s.goto (if present v then .hotPlug else .removed)

def machine : Machine (BitVec 16) Main where
  next := next

end Main

/-! ## Sessions -/

inductive Event
  /-- A request is written, for the first time or again. -/
  | sent (f : Function)
  /-- The message that a list is done has been read. -/
  | done
  /-- The request has gone through. -/
  | passed (f : Function)
  | polled (control : BitVec 16)
  /-- The keycode port is written. -/
  | shown (keycode : BitVec 16)
deriving DecidableEq, Repr

namespace Main

def emit (s : Main) (v : BitVec 16) : List Event :=
  match s.point with
  | .send f => [.sent f]
  | .wait _ | .pollWait => if v = husbTDListDone then [.done] else []
  | .check f => if v = 0x03 then [.passed f] else []
  | .retryCount f => if f ≠ .setAddress ∧ v = 0x03 then [.passed f] else []
  | .poll => [.polled s.pollControl]
  | .report => [.shown v]
  | _ => []

/-- With the reset the log starts again. -/
def record (s : Main) (v : BitVec 16) (l : List Event) : List Event :=
  if s.point = .hotPlug then [] else l ++ s.emit v

/-- The events since the controller was last reset. -/
def transcript (s : Main) (inp : ℕ → BitVec 16) : ℕ → List Event
  | 0 => []
  | n + 1 => (machine.trace s inp n).record (inp n) (transcript s inp n)

end Main

namespace Function

/-- In the order of the program. -/
def all : List Function :=
  [.setAddress, .getDeviceDesc1, .getDeviceDesc2, .getConfigDesc1, .getConfigDesc2, .setConfig, .classRequest,
    .getHidDesc, .getReportDesc]

def before (f : Function) : List Function := all.takeWhile (· ≠ f)

theorem all_eq (f : Function) : ∃ fs, all = f.before ++ f :: fs := by
  cases f <;> exact ⟨_, rfl⟩

end Function

/-- A request that goes through, `n` times repeated. -/
def transferEvents (f : Function) (n : ℕ) : List Event := List.replicate (n + 1) (.sent f) ++ [.done, .passed f]

def reportEvents (c : BitVec 16) (n : ℕ) (v : BitVec 16) : List Event :=
  List.replicate (n + 1) (.polled c) ++ [.done, .shown v]

/-- Requests, each one through before the next. -/
inductive Transfers : List Function → List Event → Prop
  | nil : Transfers [] []
  | snoc {fs : List Function} {l : List Event} (f : Function) (n : ℕ) :
    Transfers fs l → Transfers (fs ++ [f]) (l ++ transferEvents f n)

/-- Reports, each polled with the other toggle than the one before; `c` is the last. -/
inductive Reports : Option (BitVec 16) → List Event → Prop
  | nil : Reports none []
  | snoc {c : Option (BitVec 16)} {l : List Event} (d : BitVec 16) (n : ℕ) (v : BitVec 16) :
    Reports c l → c ≠ some d → Reports (some d) (l ++ reportEvents d n v)

/-- The device is set up completely, then its reports are shown. -/
def Session (w : List Event) : Prop :=
  ∃ t c r, Transfers Function.all t ∧ Reports c r ∧ w = t ++ r

/-- A session, as far as it has come. -/
def Opening (l : List Event) : Prop := ∃ w, Session w ∧ l <+: w

theorem Transfers.extend {fs : List Function} {l : List Event} (h : Transfers fs l) (gs : List Function) :
    ∃ l', Transfers (fs ++ gs) (l ++ l') := by
  induction gs generalizing fs l with
  | nil => exact ⟨[], by simpa using h⟩
  | cons g gs ih =>
    obtain ⟨l', h'⟩ := ih (h.snoc g 0)
    exact ⟨transferEvents g 0 ++ l', by simpa using h'⟩

theorem Transfers.opening {f : Function} {l k : List Event} {n : ℕ} (h : Transfers f.before l)
    (hk : k <+: transferEvents f n) : Opening (l ++ k) := by
  obtain ⟨fs, e⟩ := f.all_eq
  obtain ⟨l', h'⟩ := (h.snoc f n).extend fs
  obtain ⟨t, ht⟩ := hk
  refine ⟨l ++ transferEvents f n ++ l', ⟨_, none, [], ?_, .nil, (List.append_nil _).symm⟩, t ++ l', ?_⟩
  · rw [e]
    simpa using h'
  · rw [← ht]
    simp

theorem Reports.opening {c : Option (BitVec 16)} {d v : BitVec 16} {t r k : List Event} {n : ℕ}
    (ht : Transfers Function.all t) (h : Reports c r) (hc : c ≠ some d) (hk : k <+: reportEvents d n v) :
    Opening (t ++ r ++ k) := by
  obtain ⟨u, hu⟩ := hk
  refine ⟨t ++ (r ++ reportEvents d n v), ⟨t, some d, _, ht, h.snoc d n v hc, rfl⟩, u, ?_⟩
  rw [← hu]
  simp

namespace Main

/-- Where a session stands at each point. -/
def Stage (s : Main) (l : List Event) : Prop :=
  match s.point with
  | .hotPlug => Opening l
  | .sie1Status | .sie1Ack | .mailboxError | .husbReset | .detect | .detectRetry _ | .insert => l = []
  | .send f => ∃ t n, Transfers f.before t ∧ l = t ++ List.replicate n (.sent f)
  | .wait f => ∃ t n, Transfers f.before t ∧ l = t ++ List.replicate (n + 1) (.sent f)
  | .check f | .retryMsg f | .retryClear f | .retryStatus f | .retryCount f =>
    ∃ t n, Transfers f.before t ∧ l = t ++ (List.replicate (n + 1) (.sent f) ++ [.done])
  | .info => Transfers (Function.before .setConfig) l
  | .poll => ∃ t c r n, Transfers Function.all t ∧ Reports c r ∧ c ≠ some s.pollControl ∧
      l = t ++ r ++ List.replicate n (.polled s.pollControl)
  | .pollWait => ∃ t c r n, Transfers Function.all t ∧ Reports c r ∧ c ≠ some s.pollControl ∧
      l = t ++ r ++ List.replicate (n + 1) (.polled s.pollControl)
  | .report => ∃ t c r n, Transfers Function.all t ∧ Reports c r ∧ c ≠ some s.pollControl ∧
      l = t ++ r ++ (List.replicate (n + 1) (.polled s.pollControl) ++ [.done])
  | .plugged | .unplug _ | .removed =>
    ∃ t r, Transfers Function.all t ∧ Reports (some s.pollControl) r ∧ l = t ++ r

theorem pollControl_nextPoll (s : Main) : s.nextPoll.pollControl ≠ s.pollControl := by
  have h : (s.toggle + 1).toNat % 2 = (s.toggle.toNat + 1) % 2 := by
    rw [BitVec.toNat_add]
    exact Nat.mod_mod_of_dvd _ (by decide)
  simp only [pollControl, nextPoll, h]
  obtain h | h := Nat.mod_two_eq_zero_or_one s.toggle.toNat
  · rw [if_pos (by omega), if_neg (by omega)]
    decide
  · rw [if_neg (by omega), if_pos (by omega)]
    decide

theorem opening_nil : Opening [] := by
  have h : Transfers (Function.before .setAddress) [] := .nil
  exact h.opening (n := 0) (List.prefix_append [] _)

theorem sent_starts (f : Function) (n : ℕ) : List.replicate n (Event.sent f) <+: transferEvents f n := by
  rw [transferEvents, List.replicate_succ', List.append_assoc]
  exact List.prefix_append _ _

theorem done_starts (f : Function) (n : ℕ) :
    List.replicate (n + 1) (Event.sent f) ++ [.done] <+: transferEvents f n :=
  ⟨[.passed f], by simp [transferEvents]⟩

theorem polled_starts (c v : BitVec 16) (n : ℕ) : List.replicate n (Event.polled c) <+: reportEvents c n v := by
  rw [reportEvents, List.replicate_succ', List.append_assoc]
  exact List.prefix_append _ _

theorem report_starts (c v : BitVec 16) (n : ℕ) :
    List.replicate (n + 1) (Event.polled c) ++ [.done] <+: reportEvents c n v :=
  ⟨[.shown v], by simp [reportEvents]⟩

theorem Stage.opening {s : Main} {l : List Event} (h : s.Stage l) : Opening l := by
  obtain ⟨p, toggle, size, key⟩ := s
  cases p with
  | hotPlug => exact h
  | sie1Status | sie1Ack | mailboxError | husbReset | detect | detectRetry | insert =>
    obtain rfl : l = [] := h
    exact opening_nil
  | send f =>
    obtain ⟨t, n, ht, rfl⟩ := h
    exact ht.opening (sent_starts f n)
  | wait f =>
    obtain ⟨t, n, ht, rfl⟩ := h
    exact ht.opening ((List.prefix_append _ _).trans (done_starts f n))
  | check f | retryMsg f | retryClear f | retryStatus f | retryCount f =>
    obtain ⟨t, n, ht, rfl⟩ := h
    exact ht.opening (done_starts f n)
  | info =>
    have ht : Transfers (Function.before .setConfig) l := h
    simpa using ht.opening (n := 0) (List.prefix_append [] _)
  | poll =>
    obtain ⟨t, c, r, n, ht, hr, hc, rfl⟩ := h
    exact hr.opening ht hc (polled_starts _ 0 n)
  | pollWait =>
    obtain ⟨t, c, r, n, ht, hr, hc, rfl⟩ := h
    exact hr.opening ht hc ((List.prefix_append _ _).trans (report_starts _ 0 n))
  | report =>
    obtain ⟨t, c, r, n, ht, hr, hc, rfl⟩ := h
    exact hr.opening ht hc (report_starts _ 0 n)
  | plugged | unplug | removed =>
    obtain ⟨t, r, ht, hr, rfl⟩ := h
    exact ⟨t ++ r, ⟨t, _, r, ht, hr, rfl⟩, List.prefix_rfl⟩

theorem stage_after {s : Main} {f : Function} {t : List Event} (n : ℕ) (h : Transfers f.before t) :
    (s.after f).Stage (t ++ transferEvents f n) := by
  have e := h.snoc f n
  cases f with
  | getConfigDesc2 => exact e
  | getReportDesc => exact ⟨_, none, [], 0, e, .nil, nofun, by simp⟩
  | _ => exact ⟨_, 0, e, by simp⟩

theorem sent_again (f : Function) (t : List Event) (n : ℕ) :
    t ++ List.replicate n (Event.sent f) ++ [.sent f] = t ++ List.replicate (n + 1) (.sent f) := by
  rw [List.replicate_succ', List.append_assoc]

/-- One step, and what it logs. -/
theorem stage_next {s : Main} {l : List Event} (h : s.Stage l) (v : BitVec 16) :
    (s.next v).Stage (s.record v l) := by
  obtain ⟨p, toggle, size, key⟩ := s
  have logs (hp : p ≠ .hotPlug) : record ⟨p, toggle, size, key⟩ v l = l ++ emit ⟨p, toggle, size, key⟩ v := if_neg hp
  cases p with
  | hotPlug =>
    simp only [next, goto]
    split <;> rfl
  | sie1Status | sie1Ack | husbReset =>
    obtain rfl : l = [] := h
    simp only [next, goto]
    split <;> rfl
  | mailboxError =>
    obtain rfl : l = [] := h
    exact opening_nil
  | detect =>
    obtain rfl : l = [] := h
    simp only [next, goto]
    split
    · exact ⟨[], 0, .nil, rfl⟩
    · rfl
  | detectRetry k =>
    obtain rfl : l = [] := h
    simp only [next, goto]
    split
    · exact ⟨[], 0, .nil, rfl⟩
    · split <;> rfl
  | insert =>
    obtain rfl : l = [] := h
    simp only [next, goto]
    split
    · exact opening_nil
    · rfl
  | send f =>
    obtain ⟨t, n, ht, rfl⟩ := h
    rw [logs nofun]
    simp only [next, goto]
    split
    · exact ⟨t, n, ht, sent_again f t n⟩
    · exact ⟨t, n + 1, ht, sent_again f t n⟩
  | wait f =>
    obtain ⟨t, n, ht, rfl⟩ := h
    rw [logs nofun]
    simp only [next, goto, emit]
    split
    · exact ⟨t, n, ht, List.append_assoc ..⟩
    · exact ⟨t, n, ht, List.append_nil _⟩
  | check f =>
    obtain ⟨t, n, ht, rfl⟩ := h
    rw [logs nofun]
    simp only [next, goto, emit]
    split
    · simpa [transferEvents] using stage_after (s := ⟨.check f, toggle, size, key⟩) n ht
    · exact ⟨t, n, ht, List.append_nil _⟩
  | retryMsg f | retryClear f | retryStatus f =>
    obtain ⟨t, n, ht, rfl⟩ := h
    rw [logs nofun]
    simp only [next, goto]
    split <;> exact ⟨t, n, ht, List.append_nil _⟩
  | retryCount f =>
    have ho := h.opening
    obtain ⟨t, n, ht, rfl⟩ := h
    rw [logs nofun]
    simp only [next, goto, emit]
    by_cases hf : f = .setAddress
    · rw [if_pos hf, if_neg fun h => h.1 hf, List.append_nil]
      exact ho
    · rw [if_neg hf]
      by_cases hv : v = 0x03
      · rw [if_pos hv, if_pos ⟨hf, hv⟩]
        simpa [transferEvents] using stage_after (s := ⟨.retryCount f, toggle, size, key⟩) n ht
      · rw [if_neg hv, if_neg fun h => hv h.2]
        exact ⟨t, n, ht, List.append_nil _⟩
  | info =>
    rw [logs nofun]
    exact ⟨l, 0, h, rfl⟩
  | poll =>
    obtain ⟨t, c, r, n, ht, hr, hc, rfl⟩ := h
    have e (d : BitVec 16) : t ++ r ++ List.replicate n (Event.polled d) ++ [.polled d] =
        t ++ r ++ List.replicate (n + 1) (.polled d) := by
      rw [List.replicate_succ', List.append_assoc (t ++ r)]
    rw [logs nofun]
    simp only [next, goto]
    split
    · exact ⟨t, c, r, n, ht, hr, hc, e _⟩
    · exact ⟨t, c, r, n + 1, ht, hr, hc, e _⟩
  | pollWait =>
    obtain ⟨t, c, r, n, ht, hr, hc, rfl⟩ := h
    rw [logs nofun]
    simp only [next, goto, emit]
    split
    · exact ⟨t, c, r, n, ht, hr, hc, List.append_assoc ..⟩
    · exact ⟨t, c, r, n, ht, hr, hc, List.append_nil _⟩
  | report =>
    obtain ⟨t, c, r, n, ht, hr, hc, rfl⟩ := h
    rw [logs nofun]
    refine ⟨t, _, ht, hr.snoc _ n v hc, ?_⟩
    simp only [emit, reportEvents, List.append_assoc]
    rfl
  | plugged =>
    obtain ⟨t, r, ht, hr, rfl⟩ := h
    rw [logs nofun]
    simp only [next, goto]
    split
    · exact ⟨t, _, r, 0, ht, hr, fun h => pollControl_nextPoll _ (Option.some.inj h).symm, rfl⟩
    · exact ⟨t, r, ht, hr, List.append_nil _⟩
  | unplug k =>
    obtain ⟨t, r, ht, hr, rfl⟩ := h
    rw [logs nofun]
    simp only [next, goto]
    split
    · exact ⟨t, _, r, 0, ht, hr, fun h => pollControl_nextPoll _ (Option.some.inj h).symm, rfl⟩
    · split <;> exact ⟨t, r, ht, hr, List.append_nil _⟩
  | removed =>
    have ho := h.opening
    obtain ⟨t, r, ht, hr, rfl⟩ := h
    rw [logs nofun]
    simp only [next, goto]
    split
    · exact (List.append_nil (t ++ r)).symm ▸ ho
    · exact ⟨t, r, ht, hr, List.append_nil _⟩

theorem stage_trace {s : Main} (hs : s.point = .hotPlug) (inp : ℕ → BitVec 16) (n : ℕ) :
    (machine.trace s inp n).Stage (transcript s inp n) := by
  induction n with
  | zero =>
    rw [Stage, Machine.trace_zero, hs]
    exact opening_nil
  | succ n ih => exact stage_next ih (inp n)

/-- **Sessions.** Whatever is read, at any time the events since the last reset are the opening of a session: the
nine requests in order, each repeated until its list is done and each through before the next, and only then
reports, polled with one toggle and then the other. -/
theorem transcript_opening (s : Main) (hs : s.point = .hotPlug) (inp : ℕ → BitVec 16) (n : ℕ) :
    Opening (transcript s inp n) := (stage_trace hs inp n).opening

/-- Power-up, and a chip that plays along until the device has its address. -/
def obliging (n : ℕ) : BitVec 16 := [0x0001, 0x0fed, 0x0fed, 0x2000, 0x0010, 0x1000, 0x0003].getD n 0

theorem transcript_opening_setAddress :
    transcript ⟨.hotPlug, 0, 0, 0⟩ obliging 7 = [.sent .setAddress, .done, .passed .setAddress] ∧
      Opening (transcript ⟨.hotPlug, 0, 0, 0⟩ obliging 7) :=
  ⟨by decide, transcript_opening _ rfl obliging 7⟩

/-! ## The data toggle -/

/-- A poll that is not the repetition of one. -/
def Fresh (s : Main) (inp : ℕ → BitVec 16) (n : ℕ) : Prop :=
  (machine.trace s inp (n + 1)).point = .poll ∧ (machine.trace s inp n).point ≠ .poll

instance (s : Main) (inp : ℕ → BitVec 16) (n : ℕ) : Decidable (Fresh s inp n) := inferInstanceAs (Decidable (_ ∧ _))

def polls (s : Main) (inp : ℕ → BitVec 16) : ℕ → ℕ
  | 0 => 0
  | n + 1 => polls s inp n + if Fresh s inp n then 1 else 0

/-- A step turns the toggle and comes to a fresh poll, or neither. -/
def Turns (s s' : Main) : Prop :=
  (s' = s.nextPoll ∧ s.point ≠ .poll) ∨ (s'.toggle = s.toggle ∧ (s'.point = .poll → s.point = .poll))

theorem turns_goto {s : Main} {p : Point} (h : p = .poll → s.point = .poll) : Turns s (s.goto p) := Or.inr ⟨rfl, h⟩

theorem turns_after {s : Main} (f : Function) (h : s.point ≠ .poll) : Turns s (s.after f) := by
  cases f with
  | getReportDesc => exact Or.inl ⟨rfl, h⟩
  | _ => exact turns_goto nofun

theorem turns_next (s : Main) (v : BitVec 16) : Turns s (s.next v) := by
  obtain ⟨p, toggle, size, key⟩ := s
  cases p with
  | mailboxError => exact turns_goto nofun
  | info | report => exact Or.inr ⟨rfl, nofun⟩
  | detectRetry =>
    simp only [next]
    split
    · exact turns_goto nofun
    · split <;> exact turns_goto nofun
  | check f =>
    simp only [next]
    split
    · exact turns_after f nofun
    · exact turns_goto nofun
  | retryCount f =>
    simp only [next]
    split
    · exact turns_goto nofun
    · split
      · exact turns_after f nofun
      · exact turns_goto nofun
  | plugged =>
    simp only [next]
    split
    · exact Or.inl ⟨rfl, nofun⟩
    · exact turns_goto nofun
  | unplug k =>
    simp only [next]
    split
    · exact Or.inl ⟨rfl, nofun⟩
    · split <;> exact turns_goto nofun
  | poll => exact turns_goto fun _ => rfl
  | _ =>
    simp only [next]
    split <;> exact turns_goto nofun

theorem toggle_trace (s : Main) (inp : ℕ → BitVec 16) (n : ℕ) :
    (machine.trace s inp n).toggle = s.toggle + BitVec.ofNat 8 (polls s inp n) := by
  induction n with
  | zero => exact (BitVec.add_zero _).symm
  | succ n ih =>
    have e : machine.trace s inp (n + 1) = (machine.trace s inp n).next (inp n) := rfl
    rw [polls]
    obtain ⟨ht, hp⟩ | ⟨ht, hp⟩ := turns_next (machine.trace s inp n) (inp n)
    · have hf : Fresh s inp n := ⟨by rw [e, ht]; rfl, hp⟩
      rw [if_pos hf, e, ht]
      change (machine.trace s inp n).toggle + 1 = _
      rw [ih, BitVec.ofNat_add, BitVec.add_assoc]
      rfl
    · have hf : ¬ Fresh s inp n := fun h => h.2 (hp h.1)
      rw [if_neg hf, e, ht, ih]
      rfl

/-- **The toggle.** The polls take turns from the start of the program on: the first and every other one asks for
DATA0, a repeated one for what it asked for before, also after 256 of them and also after the keyboard has been
plugged in anew, when the device starts again with DATA0. -/
theorem poll_toggle (s : Main) (hs : s.toggle = 0) (inp : ℕ → BitVec 16) (n : ℕ) :
    (machine.trace s inp n).pollControl = if polls s inp n % 2 = 1 then 0x0001 else 0x0041 := by
  have h : (machine.trace s inp n).toggle.toNat % 2 = polls s inp n % 2 := by
    have e : (machine.trace s inp n).toggle.toNat = polls s inp n % 256 := by simp [toggle_trace, hs]
    rw [e]
    exact Nat.mod_mod_of_dvd _ (by decide)
  rw [pollControl, h]

/-- Power-up, the nine requests, a poll that is repeated once, its report and the next poll. -/
def session : List (BitVec 16) :=
  [0x0001, 0x0fed, 0x0fed, 0x2000] ++ (List.replicate 5 [0x0010, 0x1000, 0x0003]).flatten ++ [0x0008] ++
    (List.replicate 4 [0x0010, 0x1000, 0x0003]).flatten ++ [0x0000, 0x0010, 0x1000, 0x0007, 0x2000]

theorem poll_toggle_session :
    ((machine.trace ⟨.hotPlug, 0, 0, 0⟩ (session.getD · 0) 33).point = .poll ∧
      polls ⟨.hotPlug, 0, 0, 0⟩ (session.getD · 0) 33 = 1 ∧
      (machine.trace ⟨.hotPlug, 0, 0, 0⟩ (session.getD · 0) 33).pollControl = 0x0001) ∧
    ((machine.trace ⟨.hotPlug, 0, 0, 0⟩ (session.getD · 0) 37).keycode = 0x0007 ∧
      polls ⟨.hotPlug, 0, 0, 0⟩ (session.getD · 0) 37 = 2 ∧
      (machine.trace ⟨.hotPlug, 0, 0, 0⟩ (session.getD · 0) 37).pollControl = 0x0041) :=
  ⟨⟨by decide +kernel, by decide +kernel, (poll_toggle _ rfl _ 33).trans (by decide +kernel)⟩,
    by decide +kernel, by decide +kernel, (poll_toggle _ rfl _ 37).trans (by decide +kernel)⟩

end Main

end Lab8.Usb
