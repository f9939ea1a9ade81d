import TuyaOpen.Ai.Monitor
import TuyaOpen.Lib.Mealy

/-!
# Frames in the stream of a monitor client

The frames that are taken out of the stream, with garbage between them and however it is cut into
reads.
-/

namespace TuyaOpen.Ai

open Bytes

def monitorMachine : Mealy AiMonitorClient (List UInt8) (List MonitorEvent) where
  step := socketReadHandler

/-- A client with a buffer of `size` bytes; there is no promise of what is in the memory. -/
def monitorInit (size : ℕ) (mem : List UInt8) : AiMonitorClient where
  connected := true
  recvBuf := mem
  recvBufSize := size
  recvLen := 0
  base := 0

/-- A receive has some of the bytes that there is room for, and none when there is no room. -/
def MonitorReceives (client : AiMonitorClient) (data : List UInt8) : Prop :=
  client.connected = true ∧ data.length ≤ client.recvBufSize - client.recvLen ∧
    (data = [] → client.recvBufSize ≤ client.recvLen)

/-! ## Streams -/

/-- A frame that fits in the buffer. -/
structure MonitorFrame (size : ℕ) where
  reserved : Fin 64
  sequence : UInt16
  reserve : UInt8
  pkg : List UInt8
  fits : monitorHeadLen + pkg.length ≤ size
  short : pkg.length < 2 ^ 32

namespace MonitorFrame

variable {size : ℕ} (f : MonitorFrame size)

/-- The header with an ACK as its direction, version 1, no IV, SL0 and no fragment. -/
def header : List UInt8 :=
  aiMonitorMagic ++ [UInt8.ofNat (aiMonitorDirAck * 64 + f.reserved), 1] ++
    encodeBE 2 f.sequence.toNat ++ [0, f.reserve]

def bytes : List UInt8 := f.header ++ (encodeBE 4 f.pkg.length ++ f.pkg)

theorem length_header : f.header.length = aiMonitorHeaderLen := by
  simp [header, aiMonitorMagic, aiMonitorHeaderLen]

theorem length_head : (f.header ++ encodeBE 4 f.pkg.length).length = monitorHeadLen := by
  rw [List.length_append, length_header, length_encodeBE, monitorHeadLen]

theorem length_bytes : f.bytes.length = monitorHeadLen + f.pkg.length := by
  simp [bytes, length_header, monitorHeadLen, Nat.add_assoc]

theorem four_le : 4 ≤ f.bytes.length := by
  rw [length_bytes, monitorHeadLen]
  omega

theorem take_magic (more : List UInt8) : (f.bytes ++ more).take 4 = aiMonitorMagic := by
  simp [bytes, header, aiMonitorMagic]

end MonitorFrame

variable {size : ℕ}

/-- Frames with garbage in front of each, and garbage behind them. -/
def monitorStream (tail : List UInt8) : List (List UInt8 × MonitorFrame size) → List UInt8
  | [] => tail
  | (garbage, f) :: parts => garbage ++ (f.bytes ++ monitorStream tail parts)

/-- The places of the frames, with their packets. -/
def framesFrom : ℕ → List (List UInt8 × MonitorFrame size) → List (ℕ × List UInt8)
  | _, [] => []
  | pos, (garbage, f) :: parts =>
      (pos + garbage.length, f.pkg) :: framesFrom (pos + garbage.length + f.bytes.length) parts

def NoMagic (bytes : List UInt8) : Prop := ¬aiMonitorMagic <:+: bytes

def MonitorEvent.frame : MonitorEvent → Option (ℕ × List UInt8)
  | .parse pos pkg => some (pos, pkg)
  | .search _ _ => none

/-- Every frame was passed on once and in order. -/
def FramesPassed (parts : List (List UInt8 × MonitorFrame size)) (events : List MonitorEvent) :
    Prop :=
  events.filterMap MonitorEvent.frame = framesFrom 0 parts

/-- A search looks only at the bytes it was given. -/
def SearchesInside (events : List MonitorEvent) : Prop :=
  ∀ len reads, .search len reads ∈ events → reads ≤ len

/-- There is no garbage, and no read ends inside the magic number of a frame. -/
def InSync (parts : List (List UInt8 × MonitorFrame size)) (tail : List UInt8)
    (reads : List (List UInt8)) : Prop :=
  (∀ p ∈ parts, p.1 = []) ∧ tail = [] ∧
    ∀ k, ∀ p ∈ framesFrom 0 parts,
      (reads.take k).flatten.length ≤ p.1 ∨ p.1 + 4 ≤ (reads.take k).flatten.length

/-! ## Searching -/

section Search

variable {data : List UInt8}

theorem findSyncLoop_cases (data : List UInt8) (left offset : ℕ) :
    (∃ o, offset ≤ o ∧ o ≤ offset + left ∧ (data.drop o).take 4 = aiMonitorMagic ∧
      findSyncLoop data offset left = (↑o, o + 4)) ∨
    findSyncLoop data offset left = (oprtNotFound, offset + left + 4) := by
  induction left generalizing offset with
  | zero =>
      rw [findSyncLoop]
      split_ifs with hmagic
      · exact .inl ⟨offset, le_rfl, le_rfl, hmagic, rfl⟩
      · exact .inr rfl
  | succ left ih =>
      rw [findSyncLoop]
      split_ifs with hmagic
      · exact .inl ⟨offset, le_rfl, Nat.le_add_right .., hmagic, rfl⟩
      · rcases ih (offset + 1) with ⟨o, hlow, hhigh, hfound, hloop⟩ | hloop
        · exact .inl ⟨o, by omega, by omega, hfound, hloop⟩
        · refine .inr (hloop.trans ?_)
          rw [Nat.add_right_comm offset 1 left, Nat.add_assoc offset left 1]

theorem findSyncFrame_magic (h : data.take 4 = aiMonitorMagic) (len : ℕ) :
    findSyncFrame data len = (oprtOk, 4) := by
  have h0 : (data.drop 0).take 4 = aiMonitorMagic := h
  cases len with
  | zero => rw [findSyncFrame, findSyncLoop, if_pos h0]; rfl
  | succ len => rw [findSyncFrame, findSyncLoop, if_pos h0]; rfl

theorem findSyncFrame_inside {len : ℕ} (h : (findSyncFrame data len).2 ≤ len) :
    ∃ o : ℕ, o + 4 ≤ len ∧ (data.drop o).take 4 = aiMonitorMagic ∧
      (findSyncFrame data len).1 = o := by
  rcases findSyncLoop_cases data len 0 with ⟨o, -, -, hmagic, hloop⟩ | hloop
  · rw [findSyncFrame, hloop] at h ⊢
    exact ⟨o, h, hmagic, rfl⟩
  · rw [findSyncFrame, hloop] at h
    dsimp only at h
    omega

/-- The magic number has no border: garbage in front of a frame cannot begin one earlier. -/
theorem magic_behind_garbage {garbage rest : List UInt8} (hnone : NoMagic garbage) {o : ℕ}
    (h : ((garbage ++ (aiMonitorMagic ++ rest)).drop o).take 4 = aiMonitorMagic) :
    garbage.length ≤ o := by
  by_contra hlt
  have hdrop : (garbage ++ (aiMonitorMagic ++ rest)).drop o =
      garbage.drop o ++ (aiMonitorMagic ++ rest) := List.drop_append_of_le_length (by omega)
  have hlen : (garbage.drop o).length = garbage.length - o := List.length_drop
  rw [hdrop] at h
  by_cases hfour : 4 ≤ garbage.length - o
  · apply hnone
    rw [List.take_append_of_le_length (by omega)] at h
    rw [← h]
    exact (List.take_prefix ..).isInfix.trans (List.drop_suffix ..).isInfix
  · -- at most three bytes of garbage
    match hbytes : garbage.drop o with
    | [] => rw [hbytes] at hlen; simp at hlen; omega
    | [a] =>
        rw [hbytes] at h
        simp [aiMonitorMagic] at h
    | [a, b] =>
        rw [hbytes] at h
        simp [aiMonitorMagic] at h
    | [a, b, c] =>
        rw [hbytes] at h
        simp [aiMonitorMagic] at h
    | a :: b :: c :: d :: more =>
        rw [hbytes] at hlen
        simp only [List.length_cons] at hlen
        omega

theorem magic_of_take {stream : List UInt8} {len o : ℕ} (hsame : data.take len = stream.take len)
    (ho : o + 4 ≤ len) (h : (data.drop o).take 4 = aiMonitorMagic) :
    (stream.drop o).take 4 = aiMonitorMagic := by
  have hpart : ∀ l : List UInt8, (l.drop o).take 4 = ((l.take len).drop o).take 4 := by
    intro l
    rw [List.drop_take, List.take_take, Nat.min_eq_left (by omega)]
  rw [hpart, ← hsame, ← hpart]
  exact h

end Search

/-! ## One frame -/

section Frame

variable {f : MonitorFrame size} {data : List UInt8}

theorem MonitorFrame.head_of_take {n : ℕ} (hn : monitorHeadLen ≤ n) {more : List UInt8}
    (h : data.take n = (f.bytes ++ more).take n) :
    data = f.header ++ (encodeBE 4 f.pkg.length ++ data.drop monitorHeadLen) := by
  have htake : data.take monitorHeadLen = f.header ++ encodeBE 4 f.pkg.length := by
    calc
      data.take monitorHeadLen = (data.take n).take monitorHeadLen := by
        rw [List.take_take, Nat.min_eq_left hn]
      _ = (f.bytes ++ more).take monitorHeadLen := by
        rw [h, List.take_take, Nat.min_eq_left hn]
      _ = f.header ++ encodeBE 4 f.pkg.length := by
        rw [MonitorFrame.bytes, ← List.append_assoc, List.append_assoc _ f.pkg more,
          List.take_left' f.length_head]
  rw [← List.append_assoc, ← htake, List.take_append_drop]

theorem MonitorFrame.valid {n : ℕ} (hn : monitorHeadLen ≤ n) {more : List UInt8}
    (h : data.take n = (f.bytes ++ more).take n) : validFrame data := by
  have hbits : (UInt8.ofNat (aiMonitorDirAck * 64 + f.reserved)).toNat / 64 = aiMonitorDirAck := by
    have := f.reserved.isLt
    rw [UInt8.toNat_ofNat', aiMonitorDirAck]
    omega
  rw [MonitorFrame.head_of_take hn h]
  refine ⟨?_, ?_, ?_, ?_, ?_⟩
  · simpa [MonitorFrame.header, aiMonitorMagic] using hbits
  all_goals
    simp [MonitorFrame.header, aiMonitorMagic, encodeBE, aiPacketSl0, FragFlag.toNat]

theorem MonitorFrame.pkgLen {n : ℕ} (hn : monitorHeadLen ≤ n) {more : List UInt8}
    (h : data.take n = (f.bytes ++ more).take n) :
    getBE data aiMonitorHeaderLen 4 = f.pkg.length := by
  rw [MonitorFrame.head_of_take hn h, ← f.length_header]
  exact getBE_append (by simpa using f.short) ..

theorem MonitorFrame.found {n : ℕ} (hn : 4 ≤ n) {more : List UInt8}
    (h : data.take n = (f.bytes ++ more).take n) (len : ℕ) :
    findSyncFrame data len = (oprtOk, 4) := by
  apply findSyncFrame_magic
  calc
    data.take 4 = (data.take n).take 4 := by rw [List.take_take, Nat.min_eq_left hn]
    _ = (f.bytes ++ more).take 4 := by rw [h, List.take_take, Nat.min_eq_left hn]
    _ = aiMonitorMagic := f.take_magic more

end Frame

section Loop

variable {f : MonitorFrame size} {buf : List UInt8} {base recvLen processed : ℕ}

theorem parseFrames_begun {more : List UInt8} (hlow : 4 ≤ recvLen - processed)
    (hhigh : recvLen - processed < f.bytes.length)
    (h : (buf.drop processed).take (recvLen - processed) =
      (f.bytes ++ more).take (recvLen - processed)) (passes : ℕ) :
    parseFrames buf base recvLen (passes + 1) processed =
      (processed, [.search (recvLen - processed) 4]) := by
  have hleft : ¬recvLen ≤ processed := by omega
  rw [parseFrames, if_neg hleft]
  simp only [MonitorFrame.found hlow h, ne_eq, not_true_eq_false, if_false]
  by_cases hhead : recvLen - processed < monitorHeadLen
  · rw [if_pos hhead]
  · have hshort : recvLen - (processed + monitorHeadLen) < f.pkg.length := by
      rw [f.length_bytes] at hhigh
      omega
    rw [if_neg hhead, if_neg (not_not.mpr (MonitorFrame.valid (Nat.not_lt.mp hhead) h)),
      MonitorFrame.pkgLen (Nat.not_lt.mp hhead) h, if_pos hshort]

theorem parseFrames_frame {more : List UInt8} (hlen : f.bytes.length ≤ recvLen - processed)
    (h : (buf.drop processed).take (recvLen - processed) =
      (f.bytes ++ more).take (recvLen - processed)) (passes : ℕ) :
    parseFrames buf base recvLen (passes + 1) processed =
      ((parseFrames buf base recvLen passes (processed + f.bytes.length)).1,
        .search (recvLen - processed) 4 :: .parse (base + processed) f.pkg ::
          (parseFrames buf base recvLen passes (processed + f.bytes.length)).2) := by
  have hlen' := f.length_bytes
  have hmin : monitorHeadLen ≤ recvLen - processed := by omega
  have hleft : ¬recvLen ≤ processed := by
    rw [monitorHeadLen] at hmin
    omega
  have hlow : 4 ≤ recvLen - processed := f.four_le.trans hlen
  have hpkg : ((buf.drop processed).drop monitorHeadLen).take f.pkg.length = f.pkg := by
    have hfull : (buf.drop processed).take f.bytes.length = f.bytes := by
      calc
        (buf.drop processed).take f.bytes.length =
            ((buf.drop processed).take (recvLen - processed)).take f.bytes.length := by
          rw [List.take_take, Nat.min_eq_left hlen]
        _ = f.bytes := by
          rw [h, List.take_take, Nat.min_eq_left hlen, List.take_left]
    calc
      ((buf.drop processed).drop monitorHeadLen).take f.pkg.length =
          ((buf.drop processed).take f.bytes.length).drop monitorHeadLen := by
        rw [List.drop_take, hlen', Nat.add_sub_cancel_left]
      _ = f.pkg := by
        rw [hfull, MonitorFrame.bytes, ← List.append_assoc, List.drop_left' f.length_head]
  rw [parseFrames, if_neg hleft]
  simp only [MonitorFrame.found hlow h, ne_eq, not_true_eq_false, if_false,
    MonitorFrame.pkgLen hmin h, MonitorFrame.valid hmin h]
  rw [if_neg (Nat.not_lt.mpr hmin), if_neg (by omega), hpkg, hlen', Nat.add_assoc]

end Loop

/-! ## Streams that are cut -/

/-- With `n` bytes of the parts at hand there is no garbage among them, and they do not end inside
a magic number. -/
def Synced : List (List UInt8 × MonitorFrame size) → ℕ → Prop
  | [], n => n = 0
  | (garbage, f) :: parts, n =>
      n = 0 ∨ garbage = [] ∧ 4 ≤ n ∧ (n ≤ f.bytes.length ∨ Synced parts (n - f.bytes.length))

/-- What is left in the buffer is nothing, or a frame that has begun. -/
def Begun : List (List UInt8 × MonitorFrame size) → ℕ → Prop
  | [], n => n = 0
  | (garbage, f) :: _, n => n = 0 ∨ garbage = [] ∧ 4 ≤ n ∧ n < f.bytes.length

section Stream

variable {parts done rest : List (List UInt8 × MonitorFrame size)} {tail : List UInt8}

theorem synced_zero (parts : List (List UInt8 × MonitorFrame size)) : Synced parts 0 := by
  cases parts with
  | nil => rfl
  | cons part parts => exact .inl rfl

theorem Begun.synced {n : ℕ} (h : Begun parts n) : Synced parts n := by
  cases parts with
  | nil => exact h
  | cons part parts =>
      rcases h with h | ⟨hgarbage, hlow, hhigh⟩
      · exact .inl h
      · exact .inr ⟨hgarbage, hlow, .inl hhigh.le⟩

theorem synced_append (hdone : ∀ p ∈ done, p.1 = []) (n : ℕ) :
    Synced (done ++ rest) ((monitorStream [] done).length + n) ↔ Synced rest n := by
  induction done with
  | nil => simp [monitorStream]
  | cons part done ih =>
      obtain ⟨garbage, f⟩ := part
      obtain rfl : garbage = [] := hdone _ (List.mem_cons_self ..)
      have ih' := ih fun p hp ↦ hdone p (List.mem_cons_of_mem _ hp)
      have hfour := f.four_le
      rw [List.cons_append, Synced, monitorStream, List.nil_append, List.length_append,
        Nat.add_assoc, Nat.add_sub_cancel_left, ih']
      constructor
      · rintro (hzero | ⟨-, -, hle | hsynced⟩)
        · omega
        · obtain rfl : n = 0 := by omega
          exact synced_zero rest
        · exact hsynced
      · intro h
        exact .inr ⟨rfl, by omega, .inr h⟩

theorem framesFrom_append (pos : ℕ) :
    framesFrom pos (done ++ rest) =
      framesFrom pos done ++ framesFrom (pos + (monitorStream [] done).length) rest := by
  induction done generalizing pos with
  | nil => rfl
  | cons part done ih =>
      obtain ⟨garbage, f⟩ := part
      rw [List.cons_append, framesFrom, framesFrom, ih, monitorStream, List.cons_append]
      congr 3
      simp only [List.length_append]
      omega

theorem monitorStream_append :
    monitorStream tail (done ++ rest) = monitorStream [] done ++ monitorStream tail rest := by
  induction done with
  | nil => rfl
  | cons part done ih =>
      obtain ⟨garbage, f⟩ := part
      simp only [List.cons_append, monitorStream, ih, List.append_assoc]

theorem framesFrom_ge {pos : ℕ} {p : ℕ × List UInt8} (h : p ∈ framesFrom pos parts) :
    pos ≤ p.1 := by
  induction parts generalizing pos with
  | nil => cases h
  | cons part parts ih =>
      obtain ⟨garbage, f⟩ := part
      rcases List.mem_cons.mp h with rfl | h
      · exact Nat.le_add_right ..
      · have := ih h
        omega

/-- The frames that were passed on, what is still to come, and the buffer behind them. -/
structure Passes (parts : List (List UInt8 × MonitorFrame size))
    (base recvLen processed : ℕ) (r : ℕ × List MonitorEvent) : Prop where
  split : ∃ done rest, parts = done ++ rest ∧ (∀ p ∈ done, p.1 = []) ∧
    r.1 = processed + (monitorStream [] done).length ∧ r.1 ≤ recvLen ∧
    r.2.filterMap MonitorEvent.frame = framesFrom (base + processed) done ∧
    Begun rest (recvLen - r.1)
  inside : SearchesInside r.2

theorem searchesInside_nil : SearchesInside [] := by
  intro len reads h
  cases h

theorem searchesInside_cons {len reads : ℕ} {events : List MonitorEvent} (h : reads ≤ len)
    (hrest : SearchesInside events) : SearchesInside (.search len reads :: events) := by
  intro len' reads' hmem
  rcases List.mem_cons.mp hmem with heq | hmem
  · cases heq
    exact h
  · exact hrest len' reads' hmem

theorem searchesInside_parse {pos : ℕ} {pkg : List UInt8} {events : List MonitorEvent}
    (hrest : SearchesInside events) : SearchesInside (.parse pos pkg :: events) := by
  intro len' reads' hmem
  rcases List.mem_cons.mp hmem with heq | hmem
  · cases heq
  · exact hrest len' reads' hmem

theorem take_behind {buf stream : List UInt8} {n processed len : ℕ} {f : MonitorFrame size}
    (h : (buf.drop processed).take n = (f.bytes ++ stream).take n) (hlen : f.bytes.length = len) :
    (buf.drop (processed + len)).take (n - len) = stream.take (n - len) := by
  have hdrop := congrArg (List.drop len) h
  rw [List.drop_take, List.drop_take, List.drop_drop, List.drop_left' hlen] at hdrop
  exact hdrop

theorem parseFrames_end {buf : List UInt8} {base recvLen processed : ℕ} (h : recvLen ≤ processed)
    (passes : ℕ) : parseFrames buf base recvLen passes processed = (processed, []) := by
  cases passes with
  | zero => rfl
  | succ passes => rw [parseFrames, if_pos h]

theorem parseFrames_synced {buf : List UInt8} {base recvLen processed passes : ℕ}
    (hpasses : recvLen - processed ≤ passes) (hle : processed ≤ recvLen)
    (hbuf : (buf.drop processed).take (recvLen - processed) =
      (monitorStream tail parts).take (recvLen - processed))
    (hsync : Synced parts (recvLen - processed)) :
    Passes parts base recvLen processed (parseFrames buf base recvLen passes processed) := by
  induction parts generalizing processed passes with
  | nil =>
      rw [parseFrames_end (Nat.sub_eq_zero_iff_le.mp hsync)]
      exact ⟨⟨[], [], rfl, by simp, rfl, hle, rfl, hsync⟩, searchesInside_nil⟩
  | cons part parts ih =>
      obtain ⟨garbage, f⟩ := part
      rcases hsync with hzero | ⟨rfl, hfour, hrest⟩
      · rw [parseFrames_end (Nat.sub_eq_zero_iff_le.mp hzero)]
        exact ⟨⟨[], _, rfl, by simp, rfl, hle, rfl, .inl hzero⟩, searchesInside_nil⟩
      rw [monitorStream, List.nil_append] at hbuf
      obtain ⟨passes, rfl⟩ : ∃ k, passes = k + 1 := ⟨passes - 1, by omega⟩
      by_cases hlen : f.bytes.length ≤ recvLen - processed
      · have hlow := f.four_le
        have hsub : recvLen - (processed + f.bytes.length) = recvLen - processed - f.bytes.length :=
          Nat.sub_add_eq ..
        have hnext : Synced parts (recvLen - (processed + f.bytes.length)) := by
          rw [hsub]
          rcases hrest with hrest | hrest
          · rw [Nat.sub_eq_zero_of_le hrest]
            exact synced_zero parts
          · exact hrest
        have hpass := @ih (processed + f.bytes.length) passes
          (by omega) (by omega) (by rw [hsub]; exact take_behind hbuf rfl) hnext
        rw [parseFrames_frame hlen hbuf]
        obtain ⟨⟨done, rest, hparts, hdone, hr, hrle, hframes, hbegun⟩, hinside⟩ := hpass
        refine ⟨⟨([], f) :: done, rest, by rw [hparts]; rfl, ?_, ?_, hrle, ?_, hbegun⟩, ?_⟩
        · intro p hp
          rcases List.mem_cons.mp hp with rfl | hp
          · rfl
          · exact hdone p hp
        · rw [hr, monitorStream, List.nil_append, List.length_append, Nat.add_assoc]
        · rw [framesFrom, List.length_nil, Nat.add_zero, Nat.add_assoc base, ← hframes]
          rfl
        · exact searchesInside_cons hfour (searchesInside_parse hinside)
      · rw [parseFrames_begun hfour (Nat.not_le.mp hlen) hbuf]
        refine ⟨⟨[], _, rfl, by simp, rfl, hle, rfl, .inr ⟨rfl, hfour, Nat.not_le.mp hlen⟩⟩, ?_⟩
        exact searchesInside_cons hfour searchesInside_nil

/-- A frame left the buffer and was not passed on. -/
def Lost (parts : List (List UInt8 × MonitorFrame size)) (pos : ℕ) (r : ℕ × List MonitorEvent) :
    Prop :=
  ∃ p ∈ framesFrom pos parts, (∀ q ∈ r.2.filterMap MonitorEvent.frame, q.1 < p.1) ∧ p.1 < r.1

theorem parseFrames_dropped {buf : List UInt8} (base : ℕ) {recvLen processed o : ℕ}
    (hlt : processed < recvLen)
    (hfound : (findSyncFrame (buf.drop processed) (recvLen - processed)).1 = o) (ho : 0 < o)
    (passes : ℕ) :
    (parseFrames buf base recvLen (passes + 1) processed).1 = recvLen ∧
      (parseFrames buf base recvLen (passes + 1) processed).2.filterMap MonitorEvent.frame =
      [] := by
  have hleft : ¬recvLen ≤ processed := Nat.not_le.mpr hlt
  have hne : (findSyncFrame (buf.drop processed) (recvLen - processed)).1 ≠ oprtOk := by
    rw [hfound]
    exact Int.natCast_ne_zero.mpr (Nat.pos_iff_ne_zero.mp ho)
  rw [parseFrames, if_neg hleft]
  dsimp only
  rw [if_pos hne]
  exact ⟨rfl, rfl⟩

theorem parseFrames_search {buf stream : List UInt8} {base recvLen processed passes : ℕ}
    (hpasses : recvLen - processed ≤ passes) (hlt : processed < recvLen)
    (hbuf : (buf.drop processed).take (recvLen - processed) = stream.take (recvLen - processed))
    (h : SearchesInside (parseFrames buf base recvLen passes processed).2) :
    ∃ o k : ℕ, passes = k + 1 ∧ o + 4 ≤ recvLen - processed ∧
      (stream.drop o).take 4 = aiMonitorMagic ∧
      (findSyncFrame (buf.drop processed) (recvLen - processed)).1 = o := by
  obtain ⟨k, rfl⟩ : ∃ k, passes = k + 1 := ⟨passes - 1, by omega⟩
  have hleft : ¬recvLen ≤ processed := Nat.not_le.mpr hlt
  have hreads : (findSyncFrame (buf.drop processed) (recvLen - processed)).2 ≤
      recvLen - processed := by
    apply h
    rw [parseFrames, if_neg hleft]
    dsimp only
    split_ifs <;> simp
  obtain ⟨o, ho, hmagic, hfound⟩ := findSyncFrame_inside hreads
  exact ⟨o, k, rfl, ho, magic_of_take hbuf ho hmagic, hfound⟩

theorem parseFrames_unsynced {buf : List UInt8} {base recvLen processed passes : ℕ}
    (hpasses : recvLen - processed ≤ passes) (hle : processed ≤ recvLen)
    (hgarbage : ∀ p ∈ parts, NoMagic p.1) (htail : NoMagic tail)
    (hbuf : (buf.drop processed).take (recvLen - processed) =
      (monitorStream tail parts).take (recvLen - processed))
    (hsync : ¬Synced parts (recvLen - processed))
    (hinside : SearchesInside (parseFrames buf base recvLen passes processed).2) :
    Lost parts (base + processed)
      (base + (parseFrames buf base recvLen passes processed).1,
        (parseFrames buf base recvLen passes processed).2) := by
  have hsome : ∀ {parts : List (List UInt8 × MonitorFrame size)} {n : ℕ}, ¬Synced parts n →
      0 < n := by
    intro parts n hnot
    rcases Nat.eq_zero_or_pos n with rfl | hpos
    · exact absurd (synced_zero parts) hnot
    · exact hpos
  induction parts generalizing processed passes with
  | nil =>
      have hlt : processed < recvLen := Nat.lt_of_sub_pos (hsome hsync)
      obtain ⟨o, k, -, -, hmagic, -⟩ := parseFrames_search hpasses hlt hbuf hinside
      exfalso
      apply htail
      rw [← hmagic]
      exact (List.take_prefix ..).isInfix.trans (List.drop_suffix ..).isInfix
  | cons part parts ih =>
      obtain ⟨garbage, f⟩ := part
      have hlt : processed < recvLen := Nat.lt_of_sub_pos (hsome hsync)
      obtain ⟨o, k, rfl, ho, hmagic, hfound⟩ := parseFrames_search hpasses hlt hbuf hinside
      by_cases hnone : garbage = []
      · subst hnone
        rw [monitorStream, List.nil_append] at hbuf
        have hfour : 4 ≤ recvLen - processed := by omega
        have hnot : ¬(recvLen - processed ≤ f.bytes.length ∨
            Synced parts (recvLen - processed - f.bytes.length)) := by
          intro h
          exact hsync (.inr ⟨rfl, hfour, h⟩)
        obtain ⟨hlong, hrest⟩ := not_or.mp hnot
        have hlen : f.bytes.length ≤ recvLen - processed := (Nat.not_le.mp hlong).le
        have hlow := f.four_le
        rw [parseFrames_frame hlen hbuf] at hinside ⊢
        have hsub : recvLen - (processed + f.bytes.length) = recvLen - processed - f.bytes.length :=
          Nat.sub_add_eq ..
        have hinside' : SearchesInside
            (parseFrames buf base recvLen k (processed + f.bytes.length)).2 :=
          fun len reads hmem ↦ hinside len reads
            (List.mem_cons_of_mem _ (List.mem_cons_of_mem _ hmem))
        have hlost := @ih (processed + f.bytes.length) k (by omega) (by omega)
          (fun p hp ↦ hgarbage p (List.mem_cons_of_mem _ hp))
          (by rw [hsub]; exact take_behind hbuf rfl) (by rw [hsub]; exact hrest) hinside'
        obtain ⟨p, hp, hbefore, hbehind⟩ := hlost
        have hpos := framesFrom_ge hp
        refine ⟨p, ?_, ?_, hbehind⟩
        · rw [framesFrom, List.length_nil, Nat.add_zero, Nat.add_assoc]
          exact List.mem_cons_of_mem _ hp
        · intro q hq
          rcases List.mem_cons.mp hq with rfl | hq
          · dsimp only
            omega
          · exact hbefore q hq
      · -- the magic number is behind the garbage, which it is dropped with
        have hbehind : garbage.length ≤ o := by
          rw [monitorStream, MonitorFrame.bytes, MonitorFrame.header] at hmagic
          simp only [List.append_assoc] at hmagic
          exact magic_behind_garbage (hgarbage (garbage, f) (List.mem_cons_self ..)) hmagic
        have hpos : 0 < o := (List.length_pos_of_ne_nil hnone).trans_le hbehind
        obtain ⟨hend, hnothing⟩ := parseFrames_dropped base hlt hfound hpos k
        refine ⟨(base + processed + garbage.length, f.pkg), List.mem_cons_self .., ?_, ?_⟩
        · rw [hnothing]
          simp
        · rw [hend]
          dsimp only
          omega

theorem parseFrames_pos {buf : List UInt8} {base recvLen processed passes : ℕ} {q : ℕ × List UInt8}
    (h : q ∈ (parseFrames buf base recvLen passes processed).2.filterMap MonitorEvent.frame) :
    base + processed ≤ q.1 := by
  induction passes generalizing processed with
  | zero => cases h
  | succ passes ih =>
      rw [parseFrames] at h
      dsimp only at h
      split_ifs at h
      · cases h
      · cases h
      · cases h
      · cases h
      · rcases List.mem_cons.mp h with rfl | h
        · exact le_rfl
        · have := ih h
          omega
      · have := ih h
        omega

end Stream

/-! ## Reads -/

/-- The buffer holds the first bytes of what is still to come. -/
structure Aligned (tail : List UInt8) (parts : List (List UInt8 × MonitorFrame size))
    (client : AiMonitorClient) : Prop where
  connected : client.connected = true
  size_eq : client.recvBufSize = size
  room : size ≤ client.recvBuf.length
  buffered : client.recvBuf.take client.recvLen = (monitorStream tail parts).take client.recvLen
  begun : Begun parts client.recvLen

section Reads

variable {parts done rest : List (List UInt8 × MonitorFrame size)} {tail data : List UInt8}
  {client : AiMonitorClient} {reads : List (List UInt8)}

theorem Begun.lt_size (hsize : 0 < size) {n : ℕ} (h : Begun parts n) : n < size := by
  cases parts with
  | nil => exact h ▸ hsize
  | cons part parts =>
      obtain ⟨garbage, f⟩ := part
      rcases h with rfl | ⟨-, -, hlt⟩
      · exact hsize
      · rw [f.length_bytes] at hlt
        exact hlt.trans_le f.fits

theorem Begun.all_come {n : ℕ} (h : Begun parts n) (hall : (monitorStream tail parts).length ≤ n) :
    parts = [] ∧ tail = [] := by
  cases parts with
  | nil => exact ⟨rfl, List.eq_nil_of_length_eq_zero (Nat.le_zero.mp (h ▸ hall))⟩
  | cons part parts =>
      obtain ⟨garbage, f⟩ := part
      have hfour := f.four_le
      rw [monitorStream, List.length_append, List.length_append] at hall
      rcases h with rfl | ⟨-, -, hlt⟩ <;> omega

theorem Aligned.received (h : Aligned tail parts client) (hsize : 0 < size)
    (hdata : data <+: (monitorStream tail parts).drop client.recvLen) :
    (client.recvBuf.splice client.recvLen data).take (client.recvLen + data.length) =
      (monitorStream tail parts).take (client.recvLen + data.length) := by
  have hlt := h.begun.lt_size hsize
  have hroom' := h.room
  rw [List.take_splice (by omega), h.buffered, List.take_add, ← List.prefix_iff_eq_take.mp hdata]

/-- The bytes that are not processed are moved to the front. -/
def movedBuf (buf : List UInt8) (recvLen processed : ℕ) : List UInt8 :=
  if 0 < processed ∧ processed < recvLen then
    buf.splice 0 ((buf.drop processed).take (recvLen - processed))
  else buf

theorem length_movedBuf {buf : List UInt8} {recvLen processed : ℕ} (hlen : recvLen ≤ buf.length) :
    (movedBuf buf recvLen processed).length = buf.length := by
  rw [movedBuf]
  split_ifs with hmove
  · apply List.length_splice
    rw [List.length_take, List.length_drop]
    omega
  · rfl

theorem take_movedBuf {buf : List UInt8} {recvLen processed : ℕ} (hlen : recvLen ≤ buf.length)
    (hle : processed ≤ recvLen) :
    (movedBuf buf recvLen processed).take (recvLen - processed) =
      (buf.drop processed).take (recvLen - processed) := by
  rw [movedBuf]
  split_ifs with hmove
  · have hmoved : ((buf.drop processed).take (recvLen - processed)).length =
        recvLen - processed := by
      rw [List.length_take, List.length_drop]
      omega
    have htake := List.take_splice (Nat.zero_le buf.length)
      ((buf.drop processed).take (recvLen - processed))
    rw [hmoved, Nat.zero_add] at htake
    rw [htake]
    rfl
  · rcases Nat.eq_zero_or_pos processed with rfl | hpos
    · rw [List.drop_zero]
    · obtain rfl : processed = recvLen := by omega
      rw [Nat.sub_self, List.take_zero, List.take_zero]

theorem socketReadHandler_eq (hconnected : client.connected = true) (hne : data ≠ [])
    {buf : List UInt8} (hbuf : client.recvBuf.splice client.recvLen data = buf) {recvLen : ℕ}
    (hlen : client.recvLen + data.length = recvLen) {r : ℕ × List MonitorEvent}
    (hr : parseFrames buf client.base recvLen recvLen 0 = r) :
    socketReadHandler client data =
      ({ client with
        recvBuf := movedBuf buf recvLen r.1
        recvLen := recvLen - r.1
        base := client.base + r.1 }, r.2) := by
  rw [socketReadHandler, if_neg (by simp [hconnected]), if_neg hne, hbuf, hlen]
  dsimp only
  rw [hr]
  rfl

/-- What a read passes on, and what is still to come behind it. -/
structure ReadOk (tail : List UInt8) (parts : List (List UInt8 × MonitorFrame size))
    (client : AiMonitorClient) (received : ℕ) (r : AiMonitorClient × List MonitorEvent)
    (done rest : List (List UInt8 × MonitorFrame size)) : Prop where
  split : parts = done ++ rest
  clean : ∀ p ∈ done, p.1 = []
  aligned : Aligned tail rest r.1
  balance : received = (monitorStream [] done).length + r.1.recvLen
  base_eq : r.1.base = client.base + (monitorStream [] done).length
  frames : r.2.filterMap MonitorEvent.frame = framesFrom client.base done
  inside : SearchesInside r.2

theorem Aligned.read (h : Aligned tail parts client) (hsize : 0 < size) (hne : data ≠ [])
    (hroom : data.length ≤ client.recvBufSize - client.recvLen)
    (hdata : data <+: (monitorStream tail parts).drop client.recvLen)
    (hsync : Synced parts (client.recvLen + data.length)) :
    ∃ done rest, ReadOk tail parts client (client.recvLen + data.length)
      (socketReadHandler client data) done rest := by
  have hreceived := h.received hsize hdata
  have hlt := h.begun.lt_size hsize
  have hroom' := h.room
  rw [h.size_eq] at hroom
  have hlen : (client.recvBuf.splice client.recvLen data).length = client.recvBuf.length :=
    List.length_splice (by omega)
  have hle : client.recvLen + data.length ≤ (client.recvBuf.splice client.recvLen data).length := by
    omega
  generalize hbuf : client.recvBuf.splice client.recvLen data = buf at *
  generalize hrecv : client.recvLen + data.length = recvLen at *
  have hpass : Passes parts client.base recvLen 0 (parseFrames buf client.base recvLen recvLen 0) :=
    parseFrames_synced (Nat.sub_le ..) (Nat.zero_le _) hreceived hsync
  generalize hr : parseFrames buf client.base recvLen recvLen 0 = r at hpass
  rw [socketReadHandler_eq h.connected hne hbuf hrecv hr]
  obtain ⟨⟨done, rest, hparts, hdone, hdonelen, hrle, hframes, hbegun⟩, hinside⟩ := hpass
  rw [Nat.zero_add] at hdonelen
  refine ⟨done, rest, hparts, hdone, ⟨h.connected, h.size_eq, ?_, ?_, hbegun⟩, ?_, ?_, hframes,
    hinside⟩
  · rw [length_movedBuf hle, hlen]
    exact hroom'
  · rw [take_movedBuf hle hrle]
    have hdrop := congrArg (List.drop r.1) hreceived
    rw [List.drop_take, List.drop_take, hparts, monitorStream_append,
      List.drop_left' hdonelen.symm] at hdrop
    exact hdrop
  · dsimp only
    omega
  · dsimp only
    rw [hdonelen]

theorem Aligned.read_unsynced (h : Aligned tail parts client) (hsize : 0 < size) (hne : data ≠ [])
    (hgarbage : ∀ p ∈ parts, NoMagic p.1) (htail : NoMagic tail)
    (hdata : data <+: (monitorStream tail parts).drop client.recvLen)
    (hsync : ¬Synced parts (client.recvLen + data.length))
    (hinside : SearchesInside (socketReadHandler client data).2) :
    Lost parts client.base
      ((socketReadHandler client data).1.base, (socketReadHandler client data).2) := by
  have hreceived := h.received hsize hdata
  generalize hbuf : client.recvBuf.splice client.recvLen data = buf at *
  generalize hrecv : client.recvLen + data.length = recvLen at *
  have hlost := @parseFrames_unsynced _ parts tail buf client.base recvLen 0 recvLen (Nat.sub_le ..)
    (Nat.zero_le _) hgarbage htail hreceived hsync
  generalize hr : parseFrames buf client.base recvLen recvLen 0 = r at hlost
  rw [socketReadHandler_eq h.connected hne hbuf hrecv hr] at hinside ⊢
  exact hlost hinside

theorem socketReadHandler_pos {q : ℕ × List UInt8}
    (h : q ∈ (socketReadHandler client data).2.filterMap MonitorEvent.frame) :
    client.base ≤ q.1 := by
  rw [socketReadHandler] at h
  split_ifs at h
  · cases h
  · cases h
  · exact parseFrames_pos h

theorem socketReadHandler_base (client : AiMonitorClient) (data : List UInt8) :
    client.base ≤ (socketReadHandler client data).1.base := by
  rw [socketReadHandler]
  split_ifs
  · exact le_rfl
  · exact le_rfl
  · exact Nat.le_add_right ..

/-- All events of some reads. -/
def eventsOf (client : AiMonitorClient) (reads : List (List UInt8)) : List MonitorEvent :=
  (monitorMachine.outputs client reads).flatten

theorem eventsOf_cons (client : AiMonitorClient) (data : List UInt8) (reads : List (List UInt8)) :
    eventsOf client (data :: reads) =
      (socketReadHandler client data).2 ++ eventsOf (socketReadHandler client data).1 reads := rfl

theorem eventsOf_pos {q : ℕ × List UInt8}
    (h : q ∈ (eventsOf client reads).filterMap MonitorEvent.frame) : client.base ≤ q.1 := by
  induction reads generalizing client with
  | nil => cases h
  | cons data reads ih =>
      rw [eventsOf_cons, List.filterMap_append] at h
      rcases List.mem_append.mp h with h | h
      · exact socketReadHandler_pos h
      · exact (socketReadHandler_base client data).trans (ih h)

theorem searchesInside_append {events events' : List MonitorEvent} :
    SearchesInside (events ++ events') ↔ SearchesInside events ∧ SearchesInside events' := by
  constructor
  · intro h
    exact ⟨fun len reads hmem ↦ h len reads (List.mem_append_left _ hmem),
      fun len reads hmem ↦ h len reads (List.mem_append_right _ hmem)⟩
  · rintro ⟨h, h'⟩ len reads hmem
    exact (List.mem_append.mp hmem).elim (h len reads) (h' len reads)

theorem Aligned.data_ne (h : Aligned tail parts client) (hsize : 0 < size)
    (hread : MonitorReceives client data) : data ≠ [] := by
  rintro rfl
  have hfull := hread.2.2 rfl
  rw [h.size_eq] at hfull
  exact absurd (h.begun.lt_size hsize) (Nat.not_lt.mpr hfull)

theorem ReadOk.more {r : AiMonitorClient × List MonitorEvent}
    (h : ReadOk tail parts client (client.recvLen + data.length) r done rest) {more : List UInt8}
    (hpre : data ++ more <+: (monitorStream tail parts).drop client.recvLen) :
    more <+: (monitorStream tail rest).drop r.1.recvLen := by
  obtain ⟨behind, hbehind⟩ := hpre
  have hdrop := congrArg (List.drop data.length) hbehind
  rw [List.append_assoc, List.drop_left, List.drop_drop, h.balance, h.split, monitorStream_append,
    ← List.drop_drop, List.drop_left] at hdrop
  exact ⟨behind, hdrop⟩

theorem Aligned.run (h : Aligned tail parts client) (hsize : 0 < size)
    (hguard : monitorMachine.Guarded MonitorReceives client reads)
    (hpre : reads.flatten <+: (monitorStream tail parts).drop client.recvLen)
    (hsync : ∀ k, Synced parts (client.recvLen + (reads.take k).flatten.length)) :
    ∃ done rest, ReadOk tail parts client (client.recvLen + reads.flatten.length)
      (monitorMachine.final client reads, eventsOf client reads) done rest := by
  induction reads generalizing client parts with
  | nil =>
      exact ⟨[], parts, rfl, by simp, h, by simp [monitorStream], rfl, rfl, searchesInside_nil⟩
  | cons data reads ih =>
      have hne := h.data_ne hsize hguard.1
      have hdata : data <+: (monitorStream tail parts).drop client.recvLen :=
        (List.prefix_append ..).trans hpre
      have hfirst : Synced parts (client.recvLen + data.length) := by simpa using hsync 1
      obtain ⟨done, rest, hread⟩ := h.read hsize hne hguard.1.2.1 hdata hfirst
      have hrest : ∀ k, Synced rest
          ((socketReadHandler client data).1.recvLen + (reads.take k).flatten.length) := by
        intro k
        have hk := hsync (k + 1)
        rw [List.take_succ_cons, List.flatten_cons, List.length_append, ← Nat.add_assoc,
          hread.balance, Nat.add_assoc, hread.split] at hk
        exact (synced_append hread.clean _).mp hk
      obtain ⟨done', rest', hrun⟩ := ih hread.aligned hguard.2 (hread.more hpre) hrest
      refine ⟨done ++ done', rest', ?_, ?_, hrun.aligned, ?_, ?_, ?_, ?_⟩
      · rw [hread.split, hrun.split, List.append_assoc]
      · intro p hp
        exact (List.mem_append.mp hp).elim (hread.clean p) (hrun.clean p)
      · have hbalance := hread.balance
        have hbalance' := hrun.balance
        rw [monitorStream_append, List.flatten_cons, List.length_append, List.length_append,
          ← Nat.add_assoc, hbalance, Nat.add_assoc, hbalance', ← Nat.add_assoc]
        rfl
      · have hbase := hread.base_eq
        have hbase' := hrun.base_eq
        rw [monitorStream_append, List.length_append, ← Nat.add_assoc, ← hbase]
        exact hbase'
      · rw [eventsOf_cons, List.filterMap_append, framesFrom_append, hread.frames, ← hread.base_eq]
        congr 1
        exact hrun.frames
      · rw [eventsOf_cons]
        exact searchesInside_append.mpr ⟨hread.inside, hrun.inside⟩

theorem Aligned.run_unsynced (h : Aligned tail parts client) (hsize : 0 < size)
    (hgarbage : ∀ p ∈ parts, NoMagic p.1) (htail : NoMagic tail)
    (hguard : monitorMachine.Guarded MonitorReceives client reads)
    (hpre : reads.flatten <+: (monitorStream tail parts).drop client.recvLen)
    (hinside : SearchesInside (eventsOf client reads))
    (hframes : (eventsOf client reads).filterMap MonitorEvent.frame = framesFrom client.base parts)
    (k : ℕ) : Synced parts (client.recvLen + (reads.take k).flatten.length) := by
  induction reads generalizing client parts k with
  | nil =>
      rw [List.take_nil]
      exact h.begun.synced
  | cons data reads ih =>
      have hne := h.data_ne hsize hguard.1
      have hdata : data <+: (monitorStream tail parts).drop client.recvLen :=
        (List.prefix_append ..).trans hpre
      rw [eventsOf_cons] at hinside hframes
      obtain ⟨hinside, hinside'⟩ := searchesInside_append.mp hinside
      rw [List.filterMap_append] at hframes
      by_cases hfirst : Synced parts (client.recvLen + data.length)
      · obtain ⟨done, rest, hread⟩ := h.read hsize hne hguard.1.2.1 hdata hfirst
        cases k with
        | zero => exact h.begun.synced
        | succ k =>
            have hgarbage' : ∀ p ∈ rest, NoMagic p.1 := by
              intro p hp
              apply hgarbage
              rw [hread.split]
              exact List.mem_append_right _ hp
            rw [hread.frames, hread.split, framesFrom_append, ← hread.base_eq] at hframes
            have hk := ih hread.aligned hgarbage' hguard.2 (hread.more hpre) hinside'
              (List.append_cancel_left hframes) k
            rw [List.take_succ_cons, List.flatten_cons, List.length_append, ← Nat.add_assoc,
              hread.balance, Nat.add_assoc, hread.split]
            exact (synced_append hread.clean _).mpr hk
      · -- the frame that is lost now is passed on neither before nor later
        exfalso
        obtain ⟨p, hp, hbefore, hbehind⟩ :=
          h.read_unsynced hsize hne hgarbage htail hdata hfirst hinside
        rw [← hframes] at hp
        rcases List.mem_append.mp hp with hp | hp
        · exact lt_irrefl _ (hbefore p hp)
        · exact absurd hbehind (Nat.not_lt.mpr (eventsOf_pos hp))

/-! ## Which streams are in sync -/

theorem synced_all (h : Synced parts (monitorStream tail parts).length) :
    (∀ p ∈ parts, p.1 = []) ∧ tail = [] := by
  induction parts with
  | nil => exact ⟨by simp, List.eq_nil_of_length_eq_zero h⟩
  | cons part parts ih =>
      obtain ⟨garbage, f⟩ := part
      have hfour := f.four_le
      rw [monitorStream, List.length_append, List.length_append] at h
      rcases h with hzero | ⟨rfl, -, hrest⟩
      · omega
      · have hsub : ([] : List UInt8).length +
          (f.bytes.length + (monitorStream tail parts).length) -
            f.bytes.length = (monitorStream tail parts).length := by
          rw [List.length_nil, Nat.zero_add, Nat.add_sub_cancel_left]
        rw [hsub] at hrest
        have hsync : Synced parts (monitorStream tail parts).length := by
          rcases hrest with hle | hsync
          · have hnone : (monitorStream tail parts).length = 0 := by
              rw [List.length_nil] at hle
              omega
            rw [hnone]
            exact synced_zero parts
          · exact hsync
        obtain ⟨hparts, htail⟩ := ih hsync
        refine ⟨?_, htail⟩
        intro p hp
        rcases List.mem_cons.mp hp with rfl | hp
        · rfl
        · exact hparts p hp

theorem synced_iff (hclean : ∀ p ∈ parts, p.1 = []) (pos : ℕ) {n : ℕ}
    (hn : n ≤ (monitorStream [] parts).length) :
    Synced parts n ↔ ∀ p ∈ framesFrom pos parts, pos + n ≤ p.1 ∨ p.1 + 4 ≤ pos + n := by
  induction parts generalizing pos n with
  | nil => simpa [Synced, framesFrom, monitorStream] using hn
  | cons part parts ih =>
      obtain ⟨garbage, f⟩ := part
      obtain rfl : garbage = [] := hclean _ (List.mem_cons_self ..)
      have hfour := f.four_le
      have hclean' : ∀ p ∈ parts, p.1 = [] := fun p hp ↦ hclean p (List.mem_cons_of_mem _ hp)
      have hn' : n - f.bytes.length ≤ (monitorStream [] parts).length := by
        rw [monitorStream, List.nil_append, List.length_append] at hn
        omega
      have hrest := ih hclean' (pos + f.bytes.length) hn'
      rw [Synced, framesFrom, List.forall_mem_cons]
      simp only [List.length_nil, Nat.add_zero, true_and]
      by_cases hlong : n ≤ f.bytes.length
      · have hbefore : ∀ p ∈ framesFrom (pos + f.bytes.length) parts,
            pos + n ≤ p.1 ∨ p.1 + 4 ≤ pos + n := by
          intro p hp
          have := framesFrom_ge hp
          omega
        constructor
        · intro h
          exact ⟨by omega, hbefore⟩
        · intro h
          omega
      · have hsame : pos + f.bytes.length + (n - f.bytes.length) = pos + n := by omega
        rw [hsame] at hrest
        rw [← hrest]
        constructor
        · rintro (h | ⟨-, h | h⟩)
          · omega
          · omega
          · exact ⟨by omega, h⟩
        · rintro ⟨-, h⟩
          exact .inr ⟨by omega, .inr h⟩

end Reads

/-! ## Runs -/

/-- Over all bytes of a stream, every frame is passed on once and in order and no search looks
behind what was received, exactly when there is no garbage and no read ends inside the magic
number of a frame. -/
theorem frames_passed_iff {size : ℕ} (hsize : 0 < size) {mem : List UInt8}
    (hmem : size ≤ mem.length) {parts : List (List UInt8 × MonitorFrame size)} {tail : List UInt8}
    (hgarbage : ∀ p ∈ parts, NoMagic p.1) (htail : NoMagic tail) {reads : List (List UInt8)}
    (hguard : monitorMachine.Guarded MonitorReceives (monitorInit size mem) reads)
    (hpre : reads.flatten <+: monitorStream tail parts)
    (hall : (monitorMachine.final (monitorInit size mem) reads).connected = true →
      reads.flatten = monitorStream tail parts) :
    FramesPassed parts (eventsOf (monitorInit size mem) reads) ∧
      SearchesInside (eventsOf (monitorInit size mem) reads) ↔ InSync parts tail reads := by
  have halign : Aligned tail parts (monitorInit size mem) := by
    refine ⟨rfl, rfl, hmem, rfl, ?_⟩
    cases parts with
    | nil => rfl
    | cons part parts => exact .inl rfl
  have hlen : ∀ k, (reads.take k).flatten.length ≤ (monitorStream tail parts).length := by
    intro k
    have hpart : (reads.take k).flatten <+: reads.flatten :=
      ⟨(reads.drop k).flatten, by rw [← List.flatten_append, List.take_append_drop]⟩
    exact (hpart.trans hpre).length_le
  constructor
  · rintro ⟨hframes, hinside⟩
    have hsync := halign.run_unsynced hsize hgarbage htail hguard hpre hinside hframes
    obtain ⟨done, rest, hrun⟩ := halign.run hsize hguard hpre hsync
    have hcome := hall hrun.aligned.connected
    have hlast := hsync reads.length
    rw [List.take_length, hcome] at hlast
    simp only [monitorInit, Nat.zero_add] at hsync hlast
    obtain ⟨hclean, rfl⟩ := synced_all hlast
    refine ⟨hclean, rfl, ?_⟩
    intro k p hp
    have hk := (synced_iff hclean 0 (hlen k)).mp (hsync k) p hp
    rwa [Nat.zero_add] at hk
  · rintro ⟨hclean, rfl, hcuts⟩
    have hsync : ∀ k, Synced parts (0 + (reads.take k).flatten.length) := by
      intro k
      rw [Nat.zero_add, synced_iff hclean 0 (hlen k)]
      simpa using hcuts k
    obtain ⟨done, rest, hrun⟩ := halign.run hsize hguard hpre hsync
    have hcome := hall hrun.aligned.connected
    obtain ⟨rfl, -⟩ : rest = [] ∧ ([] : List UInt8) = [] := by
      apply hrun.aligned.begun.all_come
      have hbalance := hrun.balance
      rw [hcome, hrun.split, monitorStream_append, List.length_append] at hbalance
      have hzero : (monitorInit size mem).recvLen = 0 := rfl
      dsimp only at hbalance ⊢
      omega
    obtain rfl : parts = done := by
      rw [hrun.split, List.append_nil]
    exact ⟨hrun.frames, hrun.inside⟩

/-- A frame with two bytes in its packet. -/
def shortFrame (reserve : UInt8) : MonitorFrame 16 := ⟨0, 7, reserve, [1, 2], by decide, by decide⟩

def twoFrames : List (List UInt8 × MonitorFrame 16) := [([], shortFrame 1), ([], shortFrame 2)]

/-- The first read ends behind a magic number, and the second one behind the next. -/
def cutReads : List (List UInt8) :=
  let stream := monitorStream [] twoFrames
  [stream.take 4, (stream.drop 4).take 12, (stream.drop 16).take 5, stream.drop 21]

theorem frames_passed_twoFrames :
    FramesPassed twoFrames (eventsOf (monitorInit 16 (List.replicate 20 0)) cutReads) ∧
      SearchesInside (eventsOf (monitorInit 16 (List.replicate 20 0)) cutReads) := by
  have hnone : NoMagic [] := by
    rw [NoMagic]
    decide
  have hguard : monitorMachine.Guarded MonitorReceives (monitorInit 16 (List.replicate 20 0))
      cutReads :=
    ⟨⟨rfl, by decide, by decide⟩, ⟨by decide +kernel, by decide +kernel, by decide⟩,
      ⟨by decide +kernel, by decide +kernel, by decide⟩,
      ⟨by decide +kernel, by decide +kernel, by decide⟩, trivial⟩
  have hstream : cutReads.flatten = monitorStream [] twoFrames := by decide
  have hsync : InSync twoFrames [] cutReads := by
    refine ⟨by decide, rfl, ?_⟩
    intro k
    match k with
    | 0 => decide
    | 1 => decide
    | 2 => decide
    | 3 => decide
    | k + 4 =>
        have htake : cutReads.take (k + 4) = cutReads := List.take_of_length_le (by simp [cutReads])
        rw [htake]
        decide
  exact (frames_passed_iff (by decide) (by decide) (by simpa [twoFrames] using hnone) hnone hguard
    (hstream ▸ List.prefix_rfl) fun _ ↦ hstream).mpr hsync

/-- A byte of garbage in front of a frame, and a read that ends inside of its magic number. -/
theorem frames_not_passed :
    ¬FramesPassed [([255], shortFrame 1)] (eventsOf (monitorInit 16 (List.replicate 20 0))
      [[255] ++ (shortFrame 1).bytes.take 15, (shortFrame 1).bytes.drop 15]) ∧
    ¬FramesPassed [([], shortFrame 1)] (eventsOf (monitorInit 16 (List.replicate 20 0))
      [(shortFrame 1).bytes.take 2, (shortFrame 1).bytes.drop 2]) ∧
    ¬SearchesInside (eventsOf (monitorInit 16 (List.replicate 20 0)) [[255]]) := by
  refine ⟨?_, ?_, ?_⟩
  · rw [FramesPassed]
    decide +kernel
  · rw [FramesPassed]
    decide +kernel
  · intro h
    exact absurd (h 1 5 (by decide)) (by decide)

end TuyaOpen.Ai
