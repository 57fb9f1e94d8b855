import Mathlib.Data.List.Forall2
import Lab8.Lib.Port
import Lab8.UsbWait
/-!
# Transfer lists in the memory of the USB controller (usb.c:117-526)

Nine functions write a control transfer into the controller's memory, one transfer descriptor after the other
through the auto-incrementing port, and point the controller at the first. They are tables of words; what the
words mean is `Request`: from it `Request.words` lays out the descriptors, and each table is the layout of its
request (`Function.calls_eq`). The controller walks the links (`walk`).

| here | there |
| --- | --- |
| `tdList` | the accesses all nine have in common |
| `usbSetAddress` .. `usbGetReportDesc` | the functions of the same name |
| `op` | `IO_write` and `IO_read`: `HPI_ADDR` sets the pointer, `HPI_DATA` goes through it (`perform_port`) |
| `Td` | six words: where the data goes, how much, device and PID, toggle, 0013, the next descriptor |
| `pidSel`, `seqSel` | `PID_SEL`, `SEQ_SEL` (cy7c67200.h:1174, :1105) |
-/

namespace Lab8.Usb

open IoHandler

def husbSie1PCurrentTDPtr : BitVec 16 := 0x01b0

def tdList (words : List (BitVec 16)) : List Call :=
  .write hpiAddr 0x0500 :: words.map (Call.write hpiData) ++ usbWrite husbSie1PCurrentTDPtr 0x0500

def usbSetAddress : List Call := tdList
  [0x050c, 0x0008, 0x00d0, 0x0001, 0x0013, 0x0514, 0x0500, 0x0002, 0x0000, 0x0000,
    0x0000, 0x0000, 0x0090, 0x0041, 0x0013, 0x0000]

def usbGetDeviceDesc1 : List Call := tdList
  [0x050c, 0x0008, 0x02d0, 0x0001, 0x0013, 0x0514, 0x0680, 0x0100, 0x0000, 0x0008,
    0x052c, 0x0008, 0x0290, 0x0041, 0x0013, 0x0520,
    0x0000, 0x0000, 0x0210, 0x0041, 0x0013, 0x0000]

def usbGetDeviceDesc2 : List Call := tdList
  [0x050c, 0x0008, 0x02d0, 0x0001, 0x0013, 0x0514, 0x0680, 0x0100, 0x0000, 0x0012,
    0x0544, 0x0008, 0x0290, 0x0041, 0x0013, 0x0520,
    0x054c, 0x0008, 0x0290, 0x0001, 0x0013, 0x052c,
    0x0554, 0x0002, 0x0290, 0x0041, 0x0013, 0x0538,
    0x0000, 0x0000, 0x0210, 0x0041, 0x0013, 0x0000]

def usbGetConfigDesc1 : List Call := tdList
  [0x050c, 0x0008, 0x02d0, 0x0001, 0x0013, 0x0514, 0x0680, 0x0200, 0x0000, 0x0009,
    0x0544, 0x0008, 0x0290, 0x0041, 0x0013, 0x0520,
    0x054c, 0x0001, 0x0290, 0x0001, 0x0013, 0x052c,
    0x0000, 0x0000, 0x0210, 0x0041, 0x0013, 0x0000]

def usbGetConfigDesc2 : List Call := tdList
  [0x050c, 0x0008, 0x02d0, 0x0001, 0x0013, 0x0514, 0x0680, 0x0200, 0x0000, 0x00ff,
    0x055c, 0x0008, 0x0290, 0x0041, 0x0013, 0x0520,
    0x0564, 0x0008, 0x0290, 0x0001, 0x0013, 0x052c,
    0x056c, 0x0008, 0x0290, 0x0041, 0x0013, 0x0538,
    0x0574, 0x0008, 0x0290, 0x0001, 0x0013, 0x0544,
    0x057c, 0x0002, 0x0290, 0x0041, 0x0013, 0x0550,
    0x0000, 0x0000, 0x0210, 0x0041, 0x0013, 0x0000]

def usbSetConfig : List Call := tdList
  [0x050c, 0x0008, 0x02d0, 0x0001, 0x0013, 0x0514, 0x0900, 0x0001, 0x0000, 0x0000,
    0x0000, 0x0000, 0x0290, 0x0041, 0x0013, 0x0000]

def usbClassRequest : List Call := tdList
  [0x050c, 0x0008, 0x02d0, 0x0001, 0x0013, 0x0514, 0x0a21, 0x0000, 0x0000, 0x0000,
    0x0000, 0x0000, 0x0290, 0x0041, 0x0013, 0x0000]

def usbGetHidDesc : List Call := tdList
  [0x050c, 0x0008, 0x02d0, 0x0001, 0x0013, 0x0514, 0x0681, 0x2100, 0x0000, 0x007b,
    0x0544, 0x0008, 0x0290, 0x0041, 0x0013, 0x0520,
    0x0000, 0x0000, 0x0210, 0x0041, 0x0013, 0x0000]

def usbGetReportDesc : List Call := tdList
  [0x050c, 0x0008, 0x02d0, 0x0001, 0x0013, 0x0514, 0x0681, 0x2200, 0x0000, 0x007b,
    0x0580, 0x0008, 0x0290, 0x0041, 0x0013, 0x0520,
    0x0588, 0x0008, 0x0290, 0x0001, 0x0013, 0x052c,
    0x0590, 0x0008, 0x0290, 0x0041, 0x0013, 0x0538,
    0x0598, 0x0008, 0x0290, 0x0001, 0x0013, 0x0544,
    0x05a0, 0x0008, 0x0290, 0x0041, 0x0013, 0x0550,
    0x05a8, 0x0008, 0x0290, 0x0001, 0x0013, 0x055c,
    0x05b0, 0x0008, 0x0290, 0x0041, 0x0013, 0x0568,
    0x05b8, 0x0003, 0x0290, 0x0001, 0x0013, 0x0574,
    0x0000, 0x0000, 0x0210, 0x0041, 0x0013, 0x0000]

/-! ## Descriptors -/

abbrev Memory := BitVec 16 → BitVec 16

structure Td where
  base : BitVec 16
  length : BitVec 16
  pid : BitVec 16
  control : BitVec 16
  retry : BitVec 16
  next : BitVec 16
deriving DecidableEq, Repr

def Td.words (t : Td) : List (BitVec 16) := [t.base, t.length, t.pid, t.control, t.retry, t.next]

def readTd (m : Memory) (a : BitVec 16) : Td := ⟨m a, m (a + 2), m (a + 4), m (a + 6), m (a + 8), m (a + 10)⟩

/-- The list the controller goes through, with the address of every descriptor. -/
def walk (m : Memory) : ℕ → BitVec 16 → Option (List (BitVec 16 × Td))
  | 0, a => if a = 0 then some [] else none
  | n + 1, a => if a = 0 then some [] else (walk m n (readTd m a).next).map ((a, readTd m a) :: ·)

/-- What goes over the bus for a descriptor. -/
structure Token where
  device : BitVec 8
  pid : BitVec 4
  endpoint : BitVec 4
  data1 : Bool
  length : BitVec 16
deriving DecidableEq, Repr

def Td.pidSel (t : Td) : BitVec 4 := t.pid.extractLsb' 4 4
def Td.seqSel (t : Td) : Bool := t.control.getLsbD 6

def Td.token (t : Td) : Token := ⟨t.pid.extractLsb' 8 8, t.pidSel, t.pid.extractLsb' 0 4, t.seqSel, t.length⟩

def setupPid : BitVec 4 := 0xd
def inPid : BitVec 4 := 0x9
def outPid : BitVec 4 := 0x1

/-! ## Requests -/

def bmRequestType (setup : List (BitVec 16)) : BitVec 8 := (setup.getD 0 0).setWidth 8
def wLength (setup : List (BitVec 16)) : BitVec 16 := setup.getD 3 0

/-- The bytes that packets of these lengths have room for. -/
def room (lengths : List (BitVec 16)) : ℕ := lengths.foldr (fun l n => l.toNat + n) 0

/-- The setup bytes ask for the data stage: it is there if bit 7 says that the device sends, and only then, and it takes
no more than `wLength`. -/
structure Asks (setup lengths : List (BitVec 16)) : Prop where
  toHost : (bmRequestType setup).getLsbD 7 = true ↔ lengths ≠ []
  wLength : wLength setup ≠ 0 ↔ lengths ≠ []
  room : room lengths ≤ (Usb.wLength setup).toNat

instance (setup lengths : List (BitVec 16)) : Decidable (Asks setup lengths) :=
  decidable_of_iff (((bmRequestType setup).getLsbD 7 = true ↔ lengths ≠ []) ∧ (wLength setup ≠ 0 ↔ lengths ≠ []) ∧
    room lengths ≤ (wLength setup).toNat) ⟨fun h => ⟨h.1, h.2.1, h.2.2⟩, fun h => ⟨h.1, h.2, h.3⟩⟩

/-- A control transfer: the eight bytes of the request, and where the packets of the data stage go. -/
structure Request where
  device : BitVec 8
  setup : List (BitVec 16)
  buffer : BitVec 16
  lengths : List (BitVec 16)
  setup_length : setup.length = 4
  asks : Asks setup lengths

namespace Request

variable (r : Request)

def pid (p : BitVec 4) : BitVec 16 := r.device ++ (p ++ 0#4)

def data (toggle : Bool) : BitVec 16 := if toggle then 0x0041 else 0x0001

/-- Setup packets are DATA0; the request is behind the descriptor. -/
def setupTd : Td := ⟨0x050c, 0x0008, r.pid setupPid, data false, 0x0013, 0x0514⟩

/-- The handshake goes the other way. -/
def statusTd : Td := ⟨0, 0, r.pid (if r.lengths = [] then inPid else outPid), data true, 0x0013, 0⟩

/-- The descriptors from address `a` on: the packets that are left, then the status stage. -/
def tds (toggle : Bool) (a buf : BitVec 16) : List (BitVec 16) → List Td
  | [] => [r.statusTd]
  | l :: ls => ⟨buf, l, r.pid inPid, data toggle, 0x0013, a + 12⟩ :: tds (!toggle) (a + 12) (buf + l) ls

def words : List (BitVec 16) :=
  r.setupTd.words ++ (r.setup ++ (r.tds true 0x0514 r.buffer r.lengths).flatMap Td.words)

/-- What the bus should see: SETUP with DATA0, the data stage alternating from DATA1 on, the status with DATA1. -/
def tokens : List Token :=
  ⟨r.device, setupPid, 0, false, 8⟩ ::
    (r.lengths.mapIdx fun k l => ⟨r.device, inPid, 0, k % 2 = 0, l⟩) ++
    [⟨r.device, if r.lengths = [] then inPid else outPid, 0, true, 0⟩]

end Request

/-! ## The nine functions -/

inductive Function
  | setAddress | getDeviceDesc1 | getDeviceDesc2 | getConfigDesc1 | getConfigDesc2
  | setConfig | classRequest | getHidDesc | getReportDesc
deriving DecidableEq, Repr

namespace Function

def calls : Function → List Call
  | setAddress => usbSetAddress
  | getDeviceDesc1 => usbGetDeviceDesc1
  | getDeviceDesc2 => usbGetDeviceDesc2
  | getConfigDesc1 => usbGetConfigDesc1
  | getConfigDesc2 => usbGetConfigDesc2
  | setConfig => usbSetConfig
  | classRequest => usbClassRequest
  | getHidDesc => usbGetHidDesc
  | getReportDesc => usbGetReportDesc

/-- What each asks for. The device has address 2 once it has been set. -/
def request : Function → Request
  | setAddress => ⟨0, [0x0500, 0x0002, 0x0000, 0x0000], 0, [], rfl, by decide⟩
  | getDeviceDesc1 => ⟨2, [0x0680, 0x0100, 0x0000, 0x0008], 0x052c, [8], rfl, by decide⟩
  | getDeviceDesc2 => ⟨2, [0x0680, 0x0100, 0x0000, 0x0012], 0x0544, [8, 8, 2], rfl, by decide⟩
  | getConfigDesc1 => ⟨2, [0x0680, 0x0200, 0x0000, 0x0009], 0x0544, [8, 1], rfl, by decide⟩
  | getConfigDesc2 => ⟨2, [0x0680, 0x0200, 0x0000, 0x00ff], 0x055c, [8, 8, 8, 8, 2], rfl, by decide⟩
  | setConfig => ⟨2, [0x0900, 0x0001, 0x0000, 0x0000], 0, [], rfl, by decide⟩
  | classRequest => ⟨2, [0x0a21, 0x0000, 0x0000, 0x0000], 0, [], rfl, by decide⟩
  | getHidDesc => ⟨2, [0x0681, 0x2100, 0x0000, 0x007b], 0x0544, [8], rfl, by decide⟩
  | getReportDesc => ⟨2, [0x0681, 0x2200, 0x0000, 0x007b], 0x0580, [8, 8, 8, 8, 8, 8, 8, 3], rfl, by decide⟩

def words (f : Function) : List (BitVec 16) := f.request.words

theorem calls_eq (f : Function) : f.calls = tdList f.words := by
  cases f <;> rfl

end Function

/-! ## A list in memory -/

/-- What matters of a word: its bits under the mask. -/
structure Field where
  word : BitVec 16
  mask : BitVec 16

def Field.Fits (e : Field) (v : BitVec 16) : Prop := v &&& e.mask = e.word &&& e.mask

def whole (w : BitVec 16) : Field := ⟨w, 0xffff⟩

/-- The controller reports back in the upper byte of the control word and in the retry word (main.c:187-191). -/
def Td.fields (t : Td) : List Field :=
  [whole t.base, whole t.length, whole t.pid, ⟨t.control, 0x00ff⟩, ⟨t.retry, 0⟩, whole t.next]

def Request.fields (r : Request) : List Field :=
  r.setupTd.fields ++ (r.setup.map whole ++ (r.tds true 0x0514 r.buffer r.lengths).flatMap Td.fields)

/-- Up to what the controller reports. -/
structure Td.Same (t u : Td) : Prop where
  base : t.base = u.base
  length : t.length = u.length
  pid : t.pid = u.pid
  control : t.control &&& 0x00ff = u.control &&& 0x00ff
  next : t.next = u.next

def Holds (m : Memory) : BitVec 16 → List Field → Prop
  | _, [] => True
  | a, e :: es => e.Fits (m a) ∧ Holds m (a + 2) es

/-- The address of the `k`-th word. -/
def wordAt (k : ℕ) (a : BitVec 16) : BitVec 16 := (· + 2)^[k] a

theorem fits_whole {w v : BitVec 16} : (whole w).Fits v ↔ v = w := by
  have e (x : BitVec 16) : x &&& 0xffff = x := BitVec.and_allOnes
  simp only [Field.Fits, whole, e]

theorem wordAt_eq (k : ℕ) (a : BitVec 16) : wordAt k a = a + BitVec.ofNat 16 (2 * k) := by
  induction k generalizing a with
  | zero => simp [wordAt]
  | succ k ih =>
    change wordAt k (a + 2) = _
    rw [ih]
    apply BitVec.eq_of_toNat_eq
    simp
    omega

theorem toNat_wordAt {k : ℕ} {a : BitVec 16} (h : a.toNat + 2 * k < 65536) :
    (wordAt k a).toNat = a.toNat + 2 * k := by
  rw [wordAt_eq, BitVec.toNat_add, BitVec.toNat_ofNat]
  omega

theorem holds_iff {m : Memory} {es : List Field} {a : BitVec 16} :
    Holds m a es ↔ ∀ (k : ℕ) (hk : k < es.length), es[k].Fits (m (wordAt k a)) := by
  induction es generalizing a with
  | nil => simp [Holds]
  | cons e es ih =>
    rw [Holds, ih]
    constructor
    · rintro ⟨h0, h⟩ k hk
      cases k with
      | zero => exact h0
      | succ k => exact h k (Nat.lt_of_succ_lt_succ hk)
    · exact fun h => ⟨h 0 (Nat.succ_pos _), fun k hk => h (k + 1) (Nat.succ_lt_succ hk)⟩

theorem holds_append {m : Memory} {xs ys : List Field} {a : BitVec 16} :
    Holds m a (xs ++ ys) ↔ Holds m a xs ∧ Holds m (wordAt xs.length a) ys := by
  induction xs generalizing a with
  | nil => simp [Holds, wordAt]
  | cons x xs ih =>
    simp only [List.cons_append, Holds, ih, and_assoc]
    rfl

theorem readTd_of_holds {m : Memory} {a : BitVec 16} {t : Td} (h : Holds m a t.fields) : (readTd m a).Same t := by
  have e (x y : BitVec 16) : a + x + y = a + (x + y) := BitVec.add_assoc a x y
  obtain ⟨h0, h1, h2, h3, -, h5, -⟩ := h
  simp only [e] at h1 h2 h3 h5
  exact ⟨fits_whole.1 h0, fits_whole.1 h1, fits_whole.1 h2, h3, fits_whole.1 h5⟩

theorem Td.Same.token {t u : Td} (h : t.Same u) : t.token = u.token := by
  have hb : t.control.getLsbD 6 = u.control.getLsbD 6 := by
    simpa using congrArg (BitVec.getLsbD · 6) h.control
  simp only [Td.token, Td.pidSel, Td.seqSel, h.length, h.pid, hb]

theorem walk_cons {m : Memory} {n : ℕ} {a : BitVec 16} {t : Td} {l : List (BitVec 16 × Td)} {ts : List Td} (ha : a ≠ 0)
    (ht : (readTd m a).Same t) (hw : walk m n t.next = some l) (hl : List.Forall₂ (fun e u => Td.Same e.2 u) l ts) :
    ∃ l', walk m (n + 1) a = some l' ∧ List.Forall₂ (fun e u => Td.Same e.2 u) l' (t :: ts) := by
  refine ⟨(a, readTd m a) :: l, ?_, .cons ht hl⟩
  rw [walk, if_neg ha, ht.next, hw]
  rfl

/-! ## What a layout means -/

namespace Request

variable (r : Request)

theorem getLsbD_pid (p : BitVec 4) (i : ℕ) :
    (r.pid p).getLsbD i = if i < 4 then false else if i < 8 then p.getLsbD (i - 4) else r.device.getLsbD (i - 8) := by
  change BitVec.getLsbD (w := 8 + (4 + 4)) (r.device ++ (p ++ 0#4)) i = _
  rw [BitVec.getLsbD_append, BitVec.getLsbD_append]
  by_cases h4 : i < 4
  · rw [if_pos (by omega), if_pos h4, if_pos h4]
    exact BitVec.getLsbD_zero
  · by_cases h8 : i < 8
    · rw [if_pos h8, if_neg h4, if_neg h4, if_pos h8]
    · rw [if_neg h8, if_neg h4, if_neg h8]

theorem device_pid (p : BitVec 4) : (r.pid p).extractLsb' 8 8 = r.device := by
  ext i hi
  rw [BitVec.getElem_extractLsb', getLsbD_pid, if_neg (by omega), if_neg (by omega), Nat.add_sub_cancel_left]
  exact BitVec.getLsbD_eq_getElem hi

theorem pid_pid (p : BitVec 4) : (r.pid p).extractLsb' 4 4 = p := by
  ext i hi
  rw [BitVec.getElem_extractLsb', getLsbD_pid, if_neg (by omega), if_pos (by omega), Nat.add_sub_cancel_left]
  exact BitVec.getLsbD_eq_getElem hi

theorem endpoint_pid (p : BitVec 4) : (r.pid p).extractLsb' 0 4 = 0 := by
  ext i hi
  rw [BitVec.getElem_extractLsb', getLsbD_pid, if_pos (by omega)]
  exact (BitVec.getElem_zero hi).symm

theorem token_mk (b l c n : BitVec 16) (p : BitVec 4) (toggle : Bool) :
    Td.token ⟨b, l, r.pid p, data toggle, c, n⟩ = ⟨r.device, p, 0, toggle, l⟩ := by
  simp only [Td.token, Td.pidSel, Td.seqSel, device_pid, pid_pid, endpoint_pid]
  cases toggle <;> rfl

theorem toggle_succ (toggle : Bool) (k : ℕ) :
    ((!toggle) == decide (k % 2 = 0)) = (toggle == decide ((k + 1) % 2 = 0)) := by
  obtain h | h := Nat.mod_two_eq_zero_or_one k
  · rw [h, (by omega : (k + 1) % 2 = 1)]
    cases toggle <;> rfl
  · rw [h, (by omega : (k + 1) % 2 = 0)]
    cases toggle <;> rfl

theorem tokens_tds (toggle : Bool) (a buf : BitVec 16) (ls : List (BitVec 16)) :
    (r.tds toggle a buf ls).map Td.token =
      (ls.mapIdx fun k l => ⟨r.device, inPid, 0, toggle == decide (k % 2 = 0), l⟩) ++ [r.statusTd.token] := by
  induction ls generalizing toggle a buf with
  | nil => rfl
  | cons l ls ih =>
    rw [tds, List.map_cons, ih, token_mk, List.mapIdx_cons, List.cons_append]
    simp only [toggle_succ]
    cases toggle <;> rfl

theorem fields_tds_cons (toggle : Bool) (a buf l : BitVec 16) (ls : List (BitVec 16)) :
    (r.tds toggle a buf (l :: ls)).flatMap Td.fields =
      Td.fields ⟨buf, l, r.pid inPid, data toggle, 0x0013, a + 12⟩ ++
        (r.tds (!toggle) (a + 12) (buf + l) ls).flatMap Td.fields := rfl

theorem walk_tds {m : Memory} {toggle : Bool} {a buf : BitVec 16} {ls : List (BitVec 16)} {n : ℕ}
    (h : Holds m a ((r.tds toggle a buf ls).flatMap Td.fields)) (ha : 0 < a.toNat)
    (hl : a.toNat + 12 * ls.length < 65536) (hn : ls.length < n) :
    ∃ l, walk m n a = some l ∧ List.Forall₂ (fun e u => Td.Same e.2 u) l (r.tds toggle a buf ls) := by
  induction n generalizing toggle a buf ls with
  | zero => omega
  | succ n ih =>
    have hne : a ≠ 0 := by
      rintro rfl
      exact absurd ha (by decide)
    cases ls with
    | nil => exact walk_cons hne (readTd_of_holds (holds_append.1 h).1) (by cases n <;> rfl) .nil
    | cons l ls =>
      rw [fields_tds_cons] at h
      obtain ⟨ht, hs⟩ := holds_append.1 h
      rw [List.length_cons] at hl hn
      have e : (a + 12).toNat = a.toNat + 12 := BitVec.toNat_add_of_lt (by simp; omega)
      have hw : wordAt 6 a = a + 12 := wordAt_eq 6 a
      obtain ⟨l', hl', hf⟩ := ih (hw ▸ hs : Holds m (a + 12) _) (by omega) (by omega) (by omega)
      exact walk_cons hne (readTd_of_holds ht) hl' hf

end Request

/-! ## Lists and the port -/

abbrev Op := Port.Op (BitVec 16) (BitVec 16)
abbrev PortState := Port.State (BitVec 16) (BitVec 16)

/-- What a call does to pointer and memory; the mailbox and the status register are apart from them. -/
def op : Call → Option Op
  | .write a d => if a = hpiAddr then some (.point d) else if a = hpiData then some (.put d) else none
  | .read a => if a = hpiData then some .get else none

def State.port (s : State) : PortState := ⟨s.ptr, s.mem⟩

theorem perform_port (s : State) (c : Call) :
    (s.perform c).port = Port.run (· + 2) s.port (op c).toList := by
  cases c with
  | write a d =>
    by_cases h : a = hpiAddr
    · simp [State.perform, op, h, State.port, Port.step]
    · by_cases h' : a = hpiData
      · subst h'
        rfl
      · simp [State.perform, op, h, h']
  | read a =>
    by_cases h : a = hpiData
    · simp [State.perform, op, h, State.port, Port.step]
    · simp [State.perform, op, h]

def portOps (calls : List Call) : List Op := calls.filterMap op

/-- The accesses of a list of words. -/
def listOps (ws : List (BitVec 16)) : List Op :=
  .point 0x0500 :: ws.map .put ++ [.point husbSie1PCurrentTDPtr, .put 0x0500]

theorem portOps_tdList (ws : List (BitVec 16)) : portOps (tdList ws) = listOps ws := by
  have e : (ws.map (Call.write hpiData)).filterMap op = ws.map Port.Op.put := by
    rw [List.filterMap_map]
    exact congrFun List.filterMap_eq_map ws
  change .point 0x0500 :: (ws.map (Call.write hpiData) ++ usbWrite husbSie1PCurrentTDPtr 0x0500).filterMap op = _
  rw [List.filterMap_append, e]
  rfl

section
variable {R : BitVec 16 → BitVec 16 → Prop} {ws : List (BitVec 16)} {l : List Op}

/-- Whatever the pointer was: the words of the list, the pointer register, and then a program for which that holds
too. -/
theorem respects_list (hw : ∀ (k : ℕ) (hk : k < ws.length), R (wordAt k 0x0500) ws[k])
    (hc : R husbSie1PCurrentTDPtr 0x0500) (hl : ∀ p, Port.Respects (· + 2) R p l) (p : BitVec 16) :
    Port.Respects (· + 2) R p (listOps ws ++ l) := by
  have tail (p : BitVec 16) : Port.Respects (· + 2) R p ([.point husbSie1PCurrentTDPtr, .put 0x0500] ++ l) :=
    ⟨hc, hl _⟩
  rw [listOps, List.append_assoc]
  change Port.Respects (· + 2) R 0x0500 (_ ++ _)
  exact Port.respects_puts tail hw

theorem respects_lists (hw : ∀ (k : ℕ) (hk : k < ws.length), R (wordAt k 0x0500) ws[k])
    (hc : R husbSie1PCurrentTDPtr 0x0500) (n : ℕ) :
    ∀ p, Port.Respects (· + 2) R p (List.replicate n (listOps ws)).flatten := by
  induction n with
  | zero => exact fun _ => trivial
  | succ n ih => exact respects_list hw hc ih

end

/-- A store that leaves the list `es` as it is, up to what the controller reports there. -/
def Leaves (es : List Field) (x v : BitVec 16) : Prop :=
  ∀ (k : ℕ) (hk : k < es.length), x = wordAt k 0x0500 → es[k].Fits v

def Proper (es : List Field) (Q : BitVec 16 → Prop) (x v : BitVec 16) : Prop :=
  Leaves es x v ∧ (x = husbSie1PCurrentTDPtr → Q v)

/-- What is at `x` has been stored there by the controller. -/
def Own (us : List Op) (m : Memory) (x : BitVec 16) : Prop := .store x (m x) ∈ us

structure Published (es : List Field) (s : PortState) (us : List Op) (m : Memory) : Prop where
  before : (Port.host us).length < (listOps (es.map Field.word)).length →
    m husbSie1PCurrentTDPtr = s.mem husbSie1PCurrentTDPtr ∨ Own us m husbSie1PCurrentTDPtr
  holds : (listOps (es.map Field.word)).length ≤ (Port.host us).length → Holds m 0x0500 es
  current : (listOps (es.map Field.word)).length ≤ (Port.host us).length →
    m husbSie1PCurrentTDPtr = 0x0500 ∨ Own us m husbSie1PCurrentTDPtr
  frame : ∀ x, (∀ k < es.length, x ≠ wordAt k 0x0500) → x ≠ husbSie1PCurrentTDPtr → m x = s.mem x ∨ Own us m x

section
variable {es : List Field} (he : es.length ≤ 0x7000)

include he

theorem toNat_listAt {k : ℕ} (hk : k < es.length) : (wordAt k 0x0500).toNat = 0x0500 + 2 * k :=
  toNat_wordAt (show 0x0500 + 2 * k < 2 ^ 16 by omega)

theorem listAt_ne_current {k : ℕ} (hk : k < es.length) : wordAt k 0x0500 ≠ husbSie1PCurrentTDPtr := by
  intro e
  have h : 0x0500 + 2 * k = 0x01b0 := (toNat_listAt he hk).symm.trans (congrArg BitVec.toNat e)
  omega

theorem listAt_inj {i k : ℕ} (hi : i < es.length) (hk : k < es.length) (h : wordAt i 0x0500 = wordAt k 0x0500) :
    i = k := by
  have e : 0x0500 + 2 * i = 0x0500 + 2 * k :=
    (toNat_listAt he hi).symm.trans ((congrArg BitVec.toNat h).trans (toNat_listAt he hk))
  omega

/-- The words themselves leave the list as it is. -/
theorem leaves_word {k : ℕ} (hk : k < es.length) : Leaves es (wordAt k 0x0500) es[k].word := by
  intro i hi h
  obtain rfl := listAt_inj he hk hi h
  rfl

theorem proper_word (Q : BitVec 16 → Prop) {k : ℕ} (hk : k < (es.map Field.word).length) :
    Proper es Q (wordAt k 0x0500) (es.map Field.word)[k] := by
  rw [List.length_map] at hk
  rw [List.getElem_map]
  exact ⟨leaves_word he hk, fun h => absurd h (listAt_ne_current he hk)⟩

theorem proper_current {Q : BitVec 16 → Prop} {v : BitVec 16} (hQ : Q v) : Proper es Q husbSie1PCurrentTDPtr v :=
  ⟨fun _ hk h => absurd h.symm (listAt_ne_current he hk), fun _ => hQ⟩

/-- Once the pointer register has been written, the list is complete, and the rest of the program leaves it so. -/
theorem holds_of_listOps {Q : BitVec 16 → Prop} (hQ : Q 0x0500) {us rest : List Op} {s : PortState}
    (hh : Port.host us = listOps (es.map Field.word) ++ rest)
    (hr : ∀ p, Port.Respects (· + 2) (Proper es Q) p rest) (hs : Port.Stores (Proper es Q) us) :
    Holds (Port.run (· + 2) s us).mem 0x0500 es ∧ Q ((Port.run (· + 2) s us).mem husbSie1PCurrentTDPtr) := by
  rw [listOps, List.append_assoc] at hh
  obtain ⟨as, bs, rfl, ha, hb⟩ := Port.exists_split hh
  obtain ⟨cs, ds, rfl, hc, hd⟩ := Port.exists_split hb
  obtain ⟨hsa, hsb⟩ := hs.append
  have hcur := proper_current he hQ
  rw [Port.run_append]
  constructor
  · have hp (p : BitVec 16) : Port.Respects (· + 2) (Proper es Q) p (Port.host (cs ++ ds)) := by
      rw [hb]
      exact ⟨hcur, hr _⟩
    refine holds_iff.2 fun k hk => ?_
    have hk' : k < (es.map Field.word).length := by rwa [List.length_map]
    have written := Port.run_write (s := s) ha (fun _ => proper_word he Q) hsa k hk'
    exact (Port.run_keeps (hp _) hsb written).1 k hk rfl
  · obtain ⟨hsc, hsd⟩ := hsb.append
    rw [Port.run_append]
    change Port.host cs = .point husbSie1PCurrentTDPtr :: [0x0500#16].map .put at hc
    have hv (k : ℕ) (hk : k < 1) : Proper es Q (wordAt k husbSie1PCurrentTDPtr) [0x0500#16][k] := by
      obtain rfl : k = 0 := by omega
      exact hcur
    have written := Port.run_write (s := Port.run (· + 2) s as) hc hv hsc 0 Nat.one_pos
    exact (Port.run_keeps (hd ▸ hr _) hsd written).2 rfl

/-- Before, the processor has not touched the pointer register. -/
theorem current_of_part {us : List Op} {s : PortState} (hh : Port.host us <+: listOps (es.map Field.word))
    (hl : (Port.host us).length < (listOps (es.map Field.word)).length) :
    (Port.run (· + 2) s us).mem husbSie1PCurrentTDPtr = s.mem husbSie1PCurrentTDPtr ∨
      Own us (Port.run (· + 2) s us).mem husbSie1PCurrentTDPtr := by
  have e : listOps (es.map Field.word) =
      (.point 0x0500 :: ((es.map Field.word).map .put ++ [.point husbSie1PCurrentTDPtr])) ++ [.put 0x0500] := by
    simp [listOps]
  rw [e] at hh hl
  obtain heq | ⟨t, ht⟩ := List.prefix_concat_iff.1 hh
  · rw [heq] at hl
    exact absurd hl (Nat.lt_irrefl _)
  · have point (p : BitVec 16) : Port.Respects (· + 2) (fun y (_ : BitVec 16) => y ≠ husbSie1PCurrentTDPtr) p
        [.point husbSie1PCurrentTDPtr] := trivial
    have hr : Port.Respects (· + 2) (fun y _ => y ≠ husbSie1PCurrentTDPtr) s.ptr (Port.host us ++ t) := by
      rw [ht]
      change Port.Respects (· + 2) _ 0x0500 (_ ++ _)
      refine Port.respects_puts point fun k hk => ?_
      rw [List.length_map] at hk
      exact listAt_ne_current he hk
    exact Port.run_frame hr.left

/-- **Publication.** The processor writes the list any number of times, the controller stores in between: the
pointer register is written when the list is complete, and from then on it is complete at any time. -/
theorem published {n : ℕ} {us : List Op} {s : PortState}
    (hh : Port.host us <+: (List.replicate n (listOps (es.map Field.word))).flatten)
    (hs : Port.Stores (Leaves es) us) : Published es s us (Port.run (· + 2) s us).mem := by
  have hrun (x : BitVec 16) (hx : ∀ k < es.length, x ≠ wordAt k 0x0500) (hc : x ≠ husbSie1PCurrentTDPtr) :
      (Port.run (· + 2) s us).mem x = s.mem x ∨ Own us (Port.run (· + 2) s us).mem x := by
    obtain ⟨t, ht⟩ := hh
    have hr : Port.Respects (· + 2) (fun y _ => y ≠ x) s.ptr (Port.host us ++ t) := by
      rw [ht]
      refine respects_lists (fun k hk => ?_) hc.symm n s.ptr
      rw [List.length_map] at hk
      exact (hx k hk).symm
    exact Port.run_frame hr.left
  obtain hl | hl := Nat.lt_or_ge (Port.host us).length (listOps (es.map Field.word)).length
  · have hp : Port.host us <+: listOps (es.map Field.word) := by
      cases n with
      | zero => exact (List.prefix_nil.1 hh) ▸ List.prefix_append [] _
      | succ n => exact List.prefix_of_prefix_length_le hh (List.prefix_append _ _) (Nat.le_of_lt hl)
    exact ⟨fun _ => current_of_part he hp hl, fun h => absurd hl (Nat.not_lt_of_le h),
      fun h => absurd hl (Nat.not_lt_of_le h), hrun⟩
  · obtain ⟨n, rfl⟩ : ∃ k, n = k + 1 := by
      cases n with
      | zero =>
        rw [List.prefix_nil.1 hh, listOps] at hl
        exact absurd hl (by simp)
      | succ n => exact ⟨n, rfl⟩
    obtain ⟨rest, hrest⟩ := List.prefix_of_prefix_length_le (List.prefix_append _ _) hh hl
    rw [List.replicate_succ, List.flatten_cons, ← hrest, List.prefix_append_right_inj] at hh
    let Q (v : BitVec 16) : Prop := v = 0x0500 ∨ .store husbSie1PCurrentTDPtr v ∈ us
    have hQ : Q 0x0500 := Or.inl rfl
    have hst : Port.Stores (Proper es Q) us := fun x v hv => ⟨hs x v hv, fun e => Or.inr (e ▸ hv)⟩
    have hr (p : BitVec 16) : Port.Respects (· + 2) (Proper es Q) p rest := by
      obtain ⟨t, ht⟩ := hh
      have h := respects_lists (fun _ => proper_word he Q) (proper_current he hQ) n p
      rw [← ht] at h
      exact h.left
    obtain ⟨hlist, hcur⟩ := holds_of_listOps he hQ hrest.symm hr hst
    exact ⟨fun h => absurd hl (Nat.not_le_of_lt h), fun _ => hlist, fun _ => hcur, hrun⟩

end

/-! ## The nine functions in memory -/

/-- Where the packets of a data stage go, and how long they may be. -/
def packets : BitVec 16 → List (BitVec 16) → List (BitVec 16 × BitVec 16)
  | _, [] => []
  | b, l :: ls => (b, l) :: packets (b + l) ls

theorem packets_lengths (b : BitVec 16) (ls : List (BitVec 16)) : (packets b ls).map Prod.snd = ls := by
  induction ls generalizing b with
  | nil => rfl
  | cons l ls ih => rw [packets, List.map_cons, ih]

/-- The eight bytes that a setup descriptor takes to the bus. -/
def setupBytes (m : Memory) (t : Td) : List (BitVec 16) := (List.range 4).map fun k => m (wordAt k t.base)

/-- What the controller finds: from the first descriptor on a list that ends and asks the bus for the request, with
the data one packet after the other in the buffer, and where the first one says the eight bytes of the request, which
ask for that data. -/
structure Ready (r : Request) (m : Memory) : Prop where
  list : ∃ l, walk m (r.lengths.length + 2) 0x0500 = some l ∧ l.map (fun e => e.2.token) = r.tokens ∧
    (l.map fun e => (e.2.base, e.2.length)).tail.dropLast = packets r.buffer r.lengths ∧
    Asks (setupBytes m (readTd m 0x0500)) (l.map fun e => e.2.length).tail.dropLast
  setup : ∀ (k : ℕ) (hk : k < r.setup.length), m (wordAt k (readTd m 0x0500).base) = r.setup[k]

theorem map_eq_of_same {α : Type*} {f : Td → α} (hf : ∀ t u, Td.Same t u → f t = f u) {l : List (BitVec 16 × Td)}
    {ts : List Td} (h : List.Forall₂ (fun e u => Td.Same e.2 u) l ts) : l.map (fun e => f e.2) = ts.map f := by
  induction h with
  | nil => rfl
  | cons h _ ih => rw [List.map_cons, List.map_cons, ih, hf _ _ h]

namespace Request

variable (r : Request)

theorem tds_ne_nil (toggle : Bool) (a buf : BitVec 16) (ls : List (BitVec 16)) : r.tds toggle a buf ls ≠ [] := by
  cases ls <;> exact List.cons_ne_nil _ _

theorem packets_tds (toggle : Bool) (a buf : BitVec 16) (ls : List (BitVec 16)) :
    ((r.tds toggle a buf ls).map fun t => (t.base, t.length)).dropLast = packets buf ls := by
  induction ls generalizing toggle a buf with
  | nil => rfl
  | cons l ls ih =>
    rw [tds, List.map_cons, List.dropLast_cons_of_ne_nil (by simp [tds_ne_nil]), ih]
    rfl

theorem tokens_eq : (r.setupTd :: r.tds true 0x0514 r.buffer r.lengths).map Td.token = r.tokens := by
  rw [List.map_cons, tokens_tds, setupTd, token_mk, statusTd, token_mk]
  simp [tokens]

theorem ready_of_holds {m : Memory} (hl : r.lengths.length ≤ 100) (h : Holds m 0x0500 r.fields) : Ready r m := by
  obtain ⟨h1, h2⟩ := holds_append.1 h
  obtain ⟨h2, h3⟩ := holds_append.1 h2
  have same := readTd_of_holds h1
  have e : wordAt (r.setup.map whole).length (wordAt 6 0x0500) = 0x0514 := by
    rw [List.length_map, r.setup_length]
    rfl
  obtain ⟨l, hw, hf⟩ := walk_tds (n := r.lengths.length + 1) r (e ▸ h3) (by decide) (by simp; omega) (Nat.lt_succ_self _)
  obtain ⟨l', hw', hf'⟩ := walk_cons (by decide) same hw hf
  have hpackets : (l'.map fun e => (e.2.base, e.2.length)).tail.dropLast = packets r.buffer r.lengths := by
    rw [map_eq_of_same (f := fun t => (t.base, t.length)) (fun _ _ h => by rw [h.base, h.length]) hf']
    exact packets_tds ..
  have hlengths : (l'.map fun e => e.2.length).tail.dropLast = r.lengths := by
    have hl := congrArg (List.map Prod.snd) hpackets
    rw [packets_lengths, List.map_dropLast, List.map_tail, List.map_map] at hl
    exact hl
  have hsetup : ∀ (k : ℕ) (hk : k < r.setup.length), m (wordAt k (readTd m 0x0500).base) = r.setup[k] := by
    rw [same.base]
    intro k hk
    have hk' : k < (r.setup.map whole).length := by rwa [List.length_map]
    have hfit := holds_iff.1 h2 k hk'
    rw [List.getElem_map] at hfit
    exact fits_whole.1 hfit
  have hbytes : setupBytes m (readTd m 0x0500) = r.setup := by
    refine List.ext_getElem (by rw [r.setup_length, setupBytes, List.length_map, List.length_range]) fun k _ hk => ?_
    simp only [setupBytes, List.getElem_map, List.getElem_range]
    exact hsetup k hk
  refine ⟨⟨l', hw', ?_, hpackets, ?_⟩, hsetup⟩
  · rw [map_eq_of_same (fun _ _ => Td.Same.token) hf', tokens_eq]
  · rw [hbytes, hlengths]
    exact r.asks

theorem map_word_tds (ts : List Td) : (ts.flatMap Td.fields).map Field.word = ts.flatMap Td.words := by
  rw [List.map_flatMap]
  rfl

theorem map_word_fields : r.fields.map Field.word = r.words := by
  have e : (r.setup.map whole).map Field.word = r.setup := by
    rw [List.map_map]
    exact List.map_id _
  rw [fields, List.map_append, List.map_append, e, map_word_tds]
  rfl

end Request

/-- What the controller may store while it works on the list of a function. -/
inductive Function.Allowed (f : Function) (x v : BitVec 16) : Prop
  /-- Data, into the buffers of the list. -/
  | received (p : BitVec 16 × BitVec 16) (hp : p ∈ packets f.request.buffer f.request.lengths)
      (hx : p.1.toNat ≤ x.toNat) (hx' : x.toNat < p.1.toNat + p.2.toNat)
  /-- Status, into the list. -/
  | reported (k : ℕ) (hk : k < f.request.fields.length) (hx : x = wordAt k 0x0500) (hv : f.request.fields[k].Fits v)
  | elsewhere (hx : ∀ k < f.request.fields.length, x ≠ wordAt k 0x0500)

namespace Function

variable (f : Function)

theorem portOps_calls : portOps f.calls = listOps (f.request.fields.map Field.word) := by
  rw [calls_eq, portOps_tdList, Request.map_word_fields]
  rfl

theorem length_fields : f.request.fields.length ≤ 0x7000 := by
  cases f <;> decide

theorem length_lengths : f.request.lengths.length ≤ 100 := by
  cases f <;> decide

/-- The buffers are behind the list. -/
theorem packets_apart : ∀ p ∈ packets f.request.buffer f.request.lengths,
    0x0500 + 2 * f.request.fields.length ≤ p.1.toNat := by
  have h : (packets f.request.buffer f.request.lengths).all
      (fun p => Nat.ble (0x0500 + 2 * f.request.fields.length) p.1.toNat) = true := by
    cases f <;> rfl
  exact fun p hp => Nat.le_of_ble_eq_true (List.all_eq_true.1 h p hp)

theorem Allowed.leaves {x v : BitVec 16} (h : f.Allowed x v) : Leaves f.request.fields x v := by
  intro k hk hx
  cases h with
  | received p hp hx1 =>
    have hb := f.packets_apart p hp
    have ht := toNat_listAt f.length_fields hk
    rw [hx] at hx1
    omega
  | reported i hi hx' hv =>
    obtain rfl := listAt_inj f.length_fields hk hi (hx.symm.trans hx')
    exact hv
  | elsewhere h => exact absurd hx (h k hk)

/-- Three functions ask for more than they lay out: 255 bytes for 34, and 123 for 8 and for 59. -/
theorem room_eq_iff : room f.request.lengths = (wLength f.request.setup).toNat ↔
    f ∉ [getConfigDesc2, getHidDesc, getReportDesc] := by
  cases f <;> decide

/-- **Transfers.** A function is called any number of times, and the controller works on its memory at the same
time: at every point either the list is not complete yet, and the processor has not touched the pointer register, or
the list asks for the request, and the pointer register is set to it. Nothing else is written. The data stage has the
`wLength` bytes of the request, or fewer in three functions. -/
theorem transfer_ready (n : ℕ) (s : PortState) (us : List Op)
    (hh : Port.host us <+: (List.replicate n (portOps f.calls)).flatten)
    (hs : ∀ x v, .store x v ∈ us → f.Allowed x v) :
    ((Port.host us).length < (portOps f.calls).length ∧
        ((Port.run (· + 2) s us).mem husbSie1PCurrentTDPtr = s.mem husbSie1PCurrentTDPtr ∨
          Own us (Port.run (· + 2) s us).mem husbSie1PCurrentTDPtr) ∨
      (portOps f.calls).length ≤ (Port.host us).length ∧ Ready f.request (Port.run (· + 2) s us).mem ∧
        ((Port.run (· + 2) s us).mem husbSie1PCurrentTDPtr = 0x0500 ∨
          Own us (Port.run (· + 2) s us).mem husbSie1PCurrentTDPtr)) ∧
      (∀ x, (∀ k < f.request.fields.length, x ≠ wordAt k 0x0500) → x ≠ husbSie1PCurrentTDPtr →
        (Port.run (· + 2) s us).mem x = s.mem x ∨ Own us (Port.run (· + 2) s us).mem x) ∧
      (room f.request.lengths = (wLength f.request.setup).toNat ↔ f ∉ [getConfigDesc2, getHidDesc, getReportDesc]) := by
  rw [portOps_calls] at hh ⊢
  have p := published f.length_fields (s := s) hh fun x v hv => (hs x v hv).leaves
  refine ⟨?_, p.frame, f.room_eq_iff⟩
  obtain hl | hl := Nat.lt_or_ge (Port.host us).length (listOps (f.request.fields.map Field.word)).length
  · exact Or.inl ⟨hl, p.before hl⟩
  · exact Or.inr ⟨hl, f.request.ready_of_holds f.length_lengths (p.holds hl), p.current hl⟩

/-- In the middle of a second `UsbSetAddress` the controller reports in the list of the first. -/
theorem transfer_ready_resent :
    Port.host (portOps usbSetAddress ++ [.store 0x0508 3, .point 0x0500]) <+:
        (List.replicate 2 (portOps setAddress.calls)).flatten ∧
      Ready setAddress.request (Port.run (· + 2) ⟨0, fun _ => 0⟩
        (portOps usbSetAddress ++ [.store 0x0508 3, .point 0x0500])).mem := by
  have hh : Port.host (portOps usbSetAddress ++ [.store 0x0508 3, .point 0x0500]) <+:
      (List.replicate 2 (portOps setAddress.calls)).flatten := ⟨(portOps usbSetAddress).tail, rfl⟩
  refine ⟨hh, ?_⟩
  have h := (setAddress.transfer_ready 2 ⟨0, fun _ => 0⟩ _ hh ?_).1
  · obtain ⟨hl, -⟩ | ⟨-, hr, -⟩ := h
    · exact absurd hl (by decide)
    · exact hr
  · intro x v hv
    rw [usbSetAddress, portOps_tdList] at hv
    simp [listOps] at hv
    obtain ⟨rfl, rfl⟩ := hv
    have hk : 4 < setAddress.request.fields.length := by decide
    exact .reported 4 hk rfl (show 3#16 &&& 0 = 0x0013#16 &&& 0 by decide)

end Function

end Lab8.Usb
