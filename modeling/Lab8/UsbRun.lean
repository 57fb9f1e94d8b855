import Lab8.UsbMain
/-!
# Runs of the USB program

Two things about `main` that take its runs and the chip together: the list the controller has been pointed at is
complete until the processor writes the next one (`list_kept`), and if the chip plays along then the keyboard is
read again and again, from wherever the program is (`reports`).
-/

namespace Lab8.Usb.Main

open Clocked IoHandler

/-! ## Progress -/

/-- The chip plays along: it acknowledges, there is a device, and a list that is done has gone through. -/
def Obliging (s : Main) (v : BitVec 16) : Prop :=
  match s.point with
  | .sie1Ack | .husbReset => v = commAck
  | .detect | .detectRetry _ | .insert | .plugged | .unplug _ | .removed => present v = true
  | .check _ | .retryCount _ => v = 0x03
  | _ => True

/-- What the processor waits for. -/
def Answered (s : Main) (v : BitVec 16) : Prop :=
  match s.point with
  | .hotPlug | .sie1Status => v ≠ 0
  | .send _ | .retryClear _ | .retryStatus _ | .poll => flagged v = true
  | .wait _ | .pollWait => v = husbTDListDone
  | _ => True

/-- How many requests there are from this one on. -/
def left : Function → ℕ
  | .setAddress => 9
  | .getDeviceDesc1 => 8
  | .getDeviceDesc2 => 7
  | .getConfigDesc1 => 6
  | .getConfigDesc2 => 5
  | .setConfig => 4
  | .classRequest => 3
  | .getHidDesc => 2
  | .getReportDesc => 1

/-- The way to the next report. -/
def distance (s : Main) : ℕ :=
  match s.point with
  | .report => 0
  | .pollWait => 1
  | .poll => 2
  | .plugged | .unplug _ => 3
  | .retryCount f => if f = .setAddress then 107 else 10 * left f
  | .retryStatus f => if f = .setAddress then 108 else 10 * left f + 1
  | .retryClear f => if f = .setAddress then 109 else 10 * left f + 2
  | .retryMsg f => if f = .setAddress then 110 else 10 * left f + 3
  | .check f => 10 * left f + 4
  | .wait f => 10 * left f + 5
  | .send f => 10 * left f + 6
  | .info => 47
  | .detect | .detectRetry _ => 100
  | .husbReset => 101
  | .sie1Ack => 102
  | .sie1Status => 103
  | .hotPlug => 104
  | .insert | .removed | .mailboxError => 105

theorem distance_after (s : Main) (f : Function) : (s.after f).distance < 10 * left f := by
  cases f <;> simp [after, goto, nextPoll, distance, left]

theorem distance_next_lt {s : Main} {v : BitVec 16} (ho : Obliging s v) (ha : Answered s v) (hr : s.point ≠ .report) :
    (s.next v).distance < s.distance := by
  obtain ⟨p, toggle, size, key⟩ := s
  cases p with
  | hotPlug | sie1Status | sie1Ack | husbReset | detect | detectRetry | insert | plugged | unplug | removed
  | poll | pollWait => simp_all [Obliging, Answered, next, goto, distance, nextPoll, left]
  | mailboxError | info => simp [next, goto, distance, left]
  | send f | wait f => simp_all [Answered, next, goto, distance]
  | check f =>
    have hv : v = 0x03 := ho
    have h := distance_after ⟨.check f, toggle, size, key⟩ f
    simp only [next, if_pos hv]
    exact Nat.lt_of_lt_of_le h (Nat.le_add_right _ _)
  | retryMsg f =>
    by_cases hf : f = .setAddress <;> by_cases hv : v = husbTDListDone <;> simp [next, goto, distance, hf, hv]
  | retryClear f | retryStatus f =>
    have hv : flagged v = true := ha
    by_cases hf : f = .setAddress <;> simp [next, goto, distance, hf, hv]
  | retryCount f =>
    have hv : v = 0x03 := ho
    by_cases hf : f = .setAddress
    · simp [next, goto, distance, hf]
    · have h := distance_after ⟨.retryCount f, toggle, size, key⟩ f
      simp only [next, if_neg hf, if_pos hv]
      simpa only [distance, if_neg hf] using h
  | report => exact absurd rfl hr

/-- Unanswered, the processor stays where it is or goes on. -/
theorem distance_next_le {s : Main} {v : BitVec 16} (ha : ¬ Answered s v) : (s.next v).distance ≤ s.distance := by
  obtain ⟨p, toggle, size, key⟩ := s
  cases p with
  | hotPlug | sie1Status | send | wait | poll | pollWait => simp_all [Answered, next, goto, distance]
  | retryClear f | retryStatus f =>
    have hv : ¬ flagged v = true := ha
    by_cases hf : f = .setAddress <;> simp [next, goto, distance, hf, hv]
  | _ => exact absurd trivial ha

/-- **Reports.** As long as the chip plays along and answers whatever the processor waits for some time, the report
of the keyboard is read again and again, wherever the program has started. -/
theorem reports (s : Main) (inp : ℕ → BitVec 16) (ho : ∀ n, Obliging (machine.trace s inp n) (inp n))
    (ha : ∀ n, ∃ m, n ≤ m ∧ Answered (machine.trace s inp m) (inp m)) (n : ℕ) :
    ∃ m, n ≤ m ∧ (machine.trace s inp m).point = .report ∧ (machine.trace s inp (m + 1)).keycode = inp m := by
  obtain ⟨m, hm, hg⟩ := Machine.trace_reaches_fair (M := machine) (G := fun s => s.point = .report) distance ho ha
    (fun s v ho hr => by
      by_cases ha : Answered s v
      · exact Nat.le_of_lt (distance_next_lt ho ha hr)
      · exact distance_next_le ha)
    (fun s v ho ha hr => distance_next_lt ho ha hr) n
  refine ⟨m, hm, hg, ?_⟩
  change (next _ _).keycode = _
  rw [next, hg]

/-- A chip that answers at once. -/
def answer (s : Main) : BitVec 16 :=
  match s.point with
  | .hotPlug | .sie1Status => 0x0001
  | .sie1Ack | .husbReset => commAck
  | .detect | .detectRetry _ | .insert | .plugged | .unplug _ | .removed => 0x2000
  | .send _ | .retryClear _ | .retryStatus _ | .poll => hpiStatusSie1MsgFlag
  | .wait _ | .pollWait => husbTDListDone
  | .check _ | .retryCount _ => 0x0003
  | _ => 0

theorem present_answer : present 0x2000 = true := by decide

theorem flagged_answer : flagged hpiStatusSie1MsgFlag = true := by decide

theorem answer_obliging (s : Main) : Obliging s s.answer := by
  obtain ⟨p, toggle, size, key⟩ := s
  cases p with
  | detect | detectRetry | insert | plugged | unplug | removed => exact present_answer
  | sie1Ack | husbReset | check | retryCount => rfl
  | _ => trivial

theorem answer_answered (s : Main) : Answered s s.answer := by
  obtain ⟨p, toggle, size, key⟩ := s
  cases p with
  | hotPlug | sie1Status => exact (by decide : 0x0001#16 ≠ 0)
  | send | retryClear | retryStatus | poll => exact flagged_answer
  | wait | pollWait => rfl
  | _ => trivial

def answered (s : Main) : ℕ → Main
  | 0 => s
  | n + 1 => (answered s n).next (answered s n).answer

theorem trace_answered (s : Main) (n : ℕ) : machine.trace s (fun n => (answered s n).answer) n = answered s n := by
  induction n with
  | zero => rfl
  | succ n ih =>
    rw [Machine.trace_succ, ih]
    rfl

def powerUp : Main := ⟨.hotPlug, 0, 0, 0⟩

def answers (n : ℕ) : BitVec 16 := (answered powerUp n).answer

theorem reports_answered : ∃ m, 100 ≤ m ∧ (machine.trace powerUp answers m).point = .report ∧
    (machine.trace powerUp answers (m + 1)).keycode = answers m :=
  reports powerUp answers (fun n => trace_answered powerUp n ▸ answer_obliging _)
    (fun n => ⟨n, Nat.le_refl n, trace_answered powerUp n ▸ answer_answered _⟩) 100

/-! ## The list in the controller's memory -/

def pollTd (s : Main) : Td := ⟨0x051c, 0x000f &&& s.dataSize.setWidth 16, 0x0291, s.pollControl, 0x0013, 0x0000⟩

/-- The list the controller has been pointed at last, as long as the program waits for it or uses what it brought. -/
def listed (s : Main) : Option (List Field) :=
  match s.point with
  | .send f | .wait f | .check f | .retryMsg f | .retryClear f | .retryStatus f | .retryCount f =>
    some f.request.fields
  | .poll | .pollWait | .report | .plugged | .unplug _ | .removed => some s.pollTd.fields
  | _ => none

theorem length_listed {s : Main} {es : List Field} (h : s.listed = some es) : es.length ≤ 0x7000 := by
  obtain ⟨p, toggle, size, key⟩ := s
  cases p with
  | send f | wait f | check f | retryMsg f | retryClear f | retryStatus f | retryCount f =>
    obtain rfl := Option.some.inj h
    exact f.length_fields
  | poll | pollWait | report | plugged | unplug | removed =>
    obtain rfl := Option.some.inj h
    exact (by decide : 6 ≤ 0x7000)
  | _ => exact nomatch h

theorem portOps_append (xs ys : List Call) : portOps (xs ++ ys) = portOps xs ++ portOps ys := List.filterMap_append

/-- A message register is not in the list. -/
theorem proper_msg {es : List Field} (he : es.length ≤ 0x7000) (Q : BitVec 16 → Prop) (v : BitVec 16) :
    Proper es Q hpiSie1MsgAdr v := by
  refine ⟨fun k hk h => ?_, fun h => absurd h (by decide)⟩
  have e : 0x0144 = 0x0500 + 2 * k := (congrArg BitVec.toNat h).trans (toNat_listAt he hk)
  omega

/-- What the program does at such a point leaves the list as it is. -/
theorem respects_calls {s : Main} {es : List Field} (hs : s.listed = some es) {Q : BitVec 16 → Prop} (hQ : Q 0x0500)
    {l : List Op} (hl : ∀ p, Port.Respects (· + 2) (Proper es Q) p l) (p : BitVec 16) :
    Port.Respects (· + 2) (Proper es Q) p (portOps s.calls ++ l) := by
  have he := length_listed hs
  have hm := proper_msg he Q
  have hlist := respects_list (fun _ => proper_word he Q) (proper_current he hQ) hl p
  obtain ⟨q, toggle, size, key⟩ := s
  cases q with
  | send f =>
    obtain rfl := Option.some.inj hs
    change Port.Respects _ _ p (portOps (f.calls ++ [.read hpiStatus]) ++ l)
    rw [portOps_append, f.portOps_calls]
    exact (List.append_nil (listOps (f.request.fields.map Field.word))).symm ▸ hlist
  | poll =>
    obtain rfl := Option.some.inj hs
    change Port.Respects _ _ p (portOps (tdList (pollWords _) ++ [.read hpiStatus]) ++ l)
    rw [portOps_append, portOps_tdList]
    exact (List.append_nil (listOps (pollWords _))).symm ▸ hlist
  | wait f | pollWait => exact ⟨hm 0, hl _⟩
  | retryClear f => exact ⟨hm 0, hl _⟩
  | check f | retryMsg f | retryStatus f | retryCount f | report | plugged | unplug | removed => exact hl _
  | _ => exact nomatch hs

/-- As long as the answers last, the program is where the list `es` counts. -/
def Within (es : List Field) : Main → List (BitVec 16) → Prop
  | _, [] => True
  | s, v :: vs => s.listed = some es ∧ Within es (s.next v) vs

/-- What a run does with the controller's memory. -/
def program (s : Main) (vs : List (BitVec 16)) : List Op := machine.log (fun s _ => portOps s.calls) s vs

theorem respects_program {es : List Field} {Q : BitVec 16 → Prop} (hQ : Q 0x0500) {s : Main} {vs : List (BitVec 16)}
    (hw : Within es s vs) : ∀ p, Port.Respects (· + 2) (Proper es Q) p (program s vs) := by
  induction vs generalizing s with
  | nil => exact fun _ => trivial
  | cons v vs ih => exact respects_calls hw.1 hQ (ih hw.2)

/-- The list of the keyboard: one packet from its first endpoint, to 0x051c. -/
def PollReady (s : Main) (m : Memory) : Prop :=
  ∃ t, walk m 1 0x0500 = some [(0x0500, t)] ∧ t.base = 0x051c ∧
    t.token = ⟨2, inPid, 1, decide (s.toggle.toNat % 2 = 0), 0x000f &&& s.dataSize.setWidth 16⟩

/-- What the controller is to find. -/
def Listed (s : Main) (m : Memory) : Prop :=
  match s.point with
  | .send f => Ready f.request m
  | .poll => PollReady s m
  | _ => False

/-- The points where a list is written. -/
def Sends (s : Main) : Prop := s.point = .poll ∨ ∃ f, s.point = .send f

theorem pollTd_token (s : Main) :
    s.pollTd.token = ⟨2, inPid, 1, decide (s.toggle.toNat % 2 = 0), 0x000f &&& s.dataSize.setWidth 16⟩ := by
  have h : s.pollTd.seqSel = decide (s.toggle.toNat % 2 = 0) := by
    simp only [Td.seqSel, pollTd, pollControl]
    obtain h | h := Nat.mod_two_eq_zero_or_one s.toggle.toNat
    · rw [h]
      rfl
    · rw [h]
      rfl
  have hp : s.pollTd.pid = 0x0291#16 := rfl
  have hd : (0x0291#16).extractLsb' 8 8 = 2 := by decide
  have hi : (0x0291#16).extractLsb' 4 4 = inPid := by decide
  have he : (0x0291#16).extractLsb' 0 4 = 1 := by decide
  rw [Td.token, Td.pidSel, h, hp, hd, hi, he]
  rfl

theorem pollReady_of_holds {s : Main} {m : Memory} (h : Holds m 0x0500 s.pollTd.fields) : PollReady s m := by
  have same := readTd_of_holds h
  refine ⟨readTd m 0x0500, ?_, same.base, same.token.trans s.pollTd_token⟩
  have hn : (readTd m 0x0500).next = 0 := same.next
  rw [walk, if_neg (by decide), hn]
  rfl

/-- Where a list is written, its words are what the calls write, and complete it is what is to be found. -/
theorem Sends.spec {s : Main} (h : s.Sends) : ∃ es, s.listed = some es ∧
    portOps s.calls = listOps (es.map Field.word) ∧ ∀ m, Holds m 0x0500 es → s.Listed m := by
  obtain ⟨p, toggle, size, key⟩ := s
  obtain h | ⟨f, h⟩ := h
  · obtain rfl : p = .poll := h
    refine ⟨_, rfl, ?_, fun m => pollReady_of_holds⟩
    change portOps (tdList (pollWords _) ++ [.read hpiStatus]) = _
    rw [portOps_append, portOps_tdList]
    exact List.append_nil _
  · obtain rfl : p = .send f := h
    refine ⟨_, rfl, ?_, fun m => f.request.ready_of_holds f.length_lengths⟩
    change portOps (f.calls ++ [.read hpiStatus]) = _
    rw [portOps_append, f.portOps_calls]
    exact List.append_nil _

/-- **The list is kept.** From the moment it has been written once until the program writes another one or gives up,
through all repetitions, polls and status reads, and whatever the controller stores beside it in between, the
controller finds the list complete, and the pointer register is set to it unless the controller has set it. -/
theorem list_kept {s : Main} {es : List Field} {v : BitVec 16} {vs : List (BitVec 16)} (h : s.Sends)
    (hw : Within es s (v :: vs)) (c : PortState) {us : List Op} (hh : Port.host us <+: program s (v :: vs))
    (hs : Port.Stores (Leaves es) us) (hl : (portOps s.calls).length ≤ (Port.host us).length) :
    s.Listed (Port.run (· + 2) c us).mem ∧
      ((Port.run (· + 2) c us).mem husbSie1PCurrentTDPtr = 0x0500 ∨
        Own us (Port.run (· + 2) c us).mem husbSie1PCurrentTDPtr) := by
  obtain ⟨es', hes, hcalls, hlist⟩ := h.spec
  obtain rfl : es' = es := Option.some.inj (hes.symm.trans hw.1)
  have he := length_listed hes
  change Port.host us <+: portOps s.calls ++ program (s.next v) vs at hh
  rw [hcalls] at hh hl
  obtain ⟨rest, hrest⟩ := List.prefix_of_prefix_length_le (List.prefix_append _ _) hh hl
  rw [← hrest, List.prefix_append_right_inj] at hh
  let Q (v : BitVec 16) : Prop := v = 0x0500 ∨ .store husbSie1PCurrentTDPtr v ∈ us
  have hQ : Q 0x0500 := Or.inl rfl
  have hst : Port.Stores (Proper es' Q) us := fun x v hv => ⟨hs x v hv, fun e => Or.inr (e ▸ hv)⟩
  have hr (p : BitVec 16) : Port.Respects (· + 2) (Proper es' Q) p rest := by
    obtain ⟨t, ht⟩ := hh
    have hp := respects_program hQ hw.2 p
    rw [← ht] at hp
    exact hp.left
  obtain ⟨hold, hcur⟩ := holds_of_listOps he (s := c) hQ hrest.symm hr hst
  exact ⟨hlist _ hold, hcur⟩

def polling : Main := ⟨.poll, 1, 8, 0⟩

/-- A poll that is written twice. -/
def pollTwice : List Op := program polling [0x0000, 0x0010, 0x0000]

/-- While the processor reads the message register the report comes in. -/
theorem list_kept_poll : polling.Listed (Port.run (· + 2) ⟨0, fun _ => 0⟩ (pollTwice ++ [.store 0x051e 0x001a])).mem := by
  have hw : Within polling.pollTd.fields polling [0x0000, 0x0010, 0x0000] := ⟨rfl, rfl, rfl, trivial⟩
  have hh : Port.host (pollTwice ++ [.store 0x051e 0x001a]) <+: pollTwice := ⟨[], rfl⟩
  have hs : Port.Stores (Leaves polling.pollTd.fields) (pollTwice ++ [.store 0x051e 0x001a]) := by
    intro x v hv
    obtain hv | hv := List.mem_append.1 hv
    · have hhost : Port.host pollTwice = pollTwice := rfl
      exact absurd (List.filter_eq_self.1 hhost _ hv) nofun
    · obtain ⟨rfl, rfl⟩ : x = 0x051e ∧ v = 0x001a := by simpa using hv
      intro k hk h
      have hlt : k < 6 := hk
      have e : 0x051e = 0x0500 + 2 * k := (congrArg BitVec.toNat h).trans (toNat_listAt (length_listed (s := polling) rfl) hk)
      omega
  exact (list_kept (Or.inl rfl) hw ⟨0, fun _ => 0⟩ hh hs (by decide)).1

end Lab8.Usb.Main
