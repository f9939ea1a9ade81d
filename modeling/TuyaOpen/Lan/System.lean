import TuyaOpen.Lan.Authorise

/-!
# Runs of the LAN service

Connections are accepted, read calls start and receive, sessions are closed and
time out, in any order.  A read call is not atomic here: each of its receives is
an event, and what is closed meanwhile is closed under it.
-/

namespace TuyaOpen.Lan

open Bytes

def lanTcpServSockRead (lan : LanMgr) (cfd : ℤ) (time sequenceOut : ℕ) :
    LanMgr × List LanOutput :=
  if cfd < 0 ∨ lan.cfg.clientNum ≤ lan.fdNum then (lan, [])
  else (lanSesisonAdd lan cfd time sequenceOut, (freeSlot lan).toList.map .added)

def lanTcpClientSockErr (lan : LanMgr) (fd : ℤ) : LanMgr :=
  match lanSessionGetByFd lan fd with
  | none => lan
  | some i => if (lan.session i).active then lanSessionFaultSet lan i else lan

structure ReadCall where
  slot : ℕ
  leftover : List UInt8

structure LanSystem where
  lan : LanMgr
  call : Option ReadCall
  log : List LanOutput

inductive LanEvent
  | accept (cfd : ℤ) (time sequenceOut : ℕ)
  | readable (fd : ℤ)
  | recv (env : ReadEnv) (bytes nd : List UInt8)
  | close (slot : ℕ)
  | closeAll
  | timeCheck (time : ℕ)
  | sockErr (fd : ℤ)

def LanSystem.step (crypto : LanCrypto) (sys : LanSystem) : LanEvent → LanSystem
  | .accept cfd time sequenceOut =>
    let r := lanTcpServSockRead sys.lan cfd time sequenceOut
    { sys with lan := r.1, log := sys.log ++ r.2 }
  | .readable fd =>
    match sys.call, lanSessionGetByFd sys.lan fd with
    | none, some i =>
      if (sys.lan.session i).active then { sys with call := some ⟨i, []⟩ } else sys
    | _, _ => sys
  | .recv env bytes nd =>
    match sys.call with
    | none => sys
    | some call =>
      let r := recvPass crypto env sys.lan call.slot call.leftover bytes nd
      ⟨r.lan, r.again.map fun leftover ↦ ⟨call.slot, leftover⟩, sys.log ++ r.outs⟩
  | .close slot => { sys with lan := lanSessionClose sys.lan slot }
  | .closeAll => { sys with lan := lanSessionCloseAll sys.lan }
  | .timeCheck time => { sys with lan := lanSessionTimeCheck sys.lan time }
  | .sockErr fd => { sys with lan := lanTcpClientSockErr sys.lan fd }

def lanSystem (crypto : LanCrypto) : Mealy LanSystem LanEvent Unit where
  step sys event := (sys.step crypto event, ())

def lanStart (cfg : LanCfg) (isActivated : Bool) (localkey : List UInt8) : LanSystem :=
  ⟨tuyaLanInit cfg isActivated localkey, none, []⟩

/-- A receive of a call whose session was closed finds nothing on the socket. -/
def quietAfterClose (sys : LanSystem) : LanEvent → Bool
  | .recv _ bytes _ => sys.call.all fun call ↦ (sys.lan.session call.slot).active || bytes.isEmpty
  | _ => true

/-! ## The invariant over runs -/

theorem sound_start (crypto : LanCrypto) (cfg : LanCfg) (isActivated : Bool)
    (localkey : List UInt8) : Sound crypto localkey (tuyaLanInit cfg isActivated localkey) [] where
  key := rfl
  authorised := authorised_nil
  proven i hi := by cases hi
  newest i hi := by cases hi

theorem lanTcpServSockRead_sound {crypto : LanCrypto} {localkey : List UInt8} {lan : LanMgr}
    {log : List LanOutput} (h : Sound crypto localkey lan log) (cfd : ℤ) (time sequenceOut : ℕ) :
    Sound crypto localkey (lanTcpServSockRead lan cfd time sequenceOut).1
      (log ++ (lanTcpServSockRead lan cfd time sequenceOut).2) := by
  rw [lanTcpServSockRead]
  split_ifs with hfull
  · simpa using h
  rw [lanSesisonAdd, if_neg hfull]
  cases hslot : freeSlot lan with
  | none => simpa using h
  | some i =>
      refine ⟨h.key, h.authorised.snoc trivial, fun j hj ↦ ?_, fun j hj ↦ ?_⟩
      · by_cases hji : j = i
        · subst hji
          simp [LanMgr.setSession, LanSession.keyed, freedSession] at hj
        · refine (h.proven j ?_).snoc (by simpa using Ne.symm hji)
          rwa [setSession_of_ne lan _ hji] at hj
      · by_cases hji : j = i
        · subst hji
          exact below_added j _ log
        · rw [setSession_of_ne lan _ hji] at hj ⊢
          exact (h.newest j hj).snoc (by simp)

theorem lanTcpClientSockErr_sound {crypto : LanCrypto} {localkey : List UInt8} {lan : LanMgr}
    {log : List LanOutput} (h : Sound crypto localkey lan log) (fd : ℤ) :
    Sound crypto localkey (lanTcpClientSockErr lan fd) log := by
  rw [lanTcpClientSockErr]
  cases lanSessionGetByFd lan fd with
  | none => exact h
  | some i =>
      dsimp only
      split_ifs
      · exact h.steady (lanSessionFaultSet_steady lan i)
      · exact h

theorem step_sound {crypto : LanCrypto} {localkey : List UInt8} {sys : LanSystem}
    (h : Sound crypto localkey sys.lan sys.log)
    {event : LanEvent} (hquiet : quietAfterClose sys event = true) :
    Sound crypto localkey (sys.step crypto event).lan (sys.step crypto event).log := by
  cases event with
  | accept cfd time sequenceOut => exact lanTcpServSockRead_sound h cfd time sequenceOut
  | readable fd =>
      simp only [LanSystem.step]
      split
      · split_ifs <;> exact h
      · exact h
  | recv env bytes nd =>
      simp only [LanSystem.step]
      cases hcall : sys.call with
      | none => exact h
      | some call =>
          have hopen : (sys.lan.session call.slot).active = true ∨ bytes = [] := by
            simpa [quietAfterClose, hcall] using hquiet
          rcases hopen with hactive | rfl
          · exact recvPass_sound env call.leftover bytes nd h hactive
          · dsimp only
            rw [recvPass_nil]
            simpa using h.steady (lanSessionFaultSet_steady sys.lan call.slot)
  | close slot => exact h.wiped (lanSessionClose_wiped sys.lan slot)
  | closeAll => exact h.wiped (lanSessionCloseAll_wiped sys.lan)
  | timeCheck time => exact h.wiped (lanSessionTimeCheck_wiped sys.lan time)
  | sockErr fd => exact lanTcpClientSockErr_sound h fd

/-- In every run in which a call does not receive for a session that was closed under it,
frames find their session active, frames beyond the handshake find one that has passed
it, and the sequence numbers on a session grow. -/
theorem lan_frames_authorised (crypto : LanCrypto) (cfg : LanCfg) (isActivated : Bool)
    (localkey : List UInt8) (events : List LanEvent)
    (hquiet : (lanSystem crypto).Guarded (fun sys event ↦ quietAfterClose sys event = true)
      (lanStart cfg isActivated localkey) events) :
    Authorised crypto localkey
      ((lanSystem crypto).final (lanStart cfg isActivated localkey) events).log := by
  have hsound : Sound crypto localkey
      ((lanSystem crypto).final (lanStart cfg isActivated localkey) events).lan
      ((lanSystem crypto).final (lanStart cfg isActivated localkey) events).log := by
    refine (lanSystem crypto).inv_final
      (I := fun sys ↦ Sound crypto localkey sys.lan sys.log) ?_ ?_ hquiet
    · intro sys event h hev
      exact step_sound h hev
    · exact sound_start crypto cfg isActivated localkey
  exact hsound.authorised

/-! ## A replayed handshake frame -/

/-- The tag of an empty TYPE3 frame with sequence number 1. -/
def helloTag : List UInt8 :=
  [73, 155, 64, 154, 89, 9, 100, 240, 173, 249, 222, 161, 30, 228, 173, 94]

def helloCrypto : LanCrypto where
  gcm := tableGcm sampleKey sampleNonce [⟨lpv35AdditionalData 1 3 28, [], [], helloTag⟩]
  sha256Mac _ _ := List.replicate 32 0

def helloFrame : List UInt8 :=
  lpv35FrameHead ++ lpv35AdditionalData 1 3 28 ++ sampleNonce ++ helloTag ++ lpv35FrameTail

/-- A client connects and sends the frame twice, which closes its session, and then
sends `last`. -/
def helloTwice (last : List UInt8) : List LanEvent :=
  [.accept 5 0 0, .readable 5, .recv sampleReadEnv (helloFrame ++ helloFrame) [],
    .recv sampleReadEnv last []]

theorem lan_frames_authorised_hello :
    (lanSystem helloCrypto).Guarded (fun sys event ↦ quietAfterClose sys event = true)
      (lanStart sLanCfg true sampleKey) (helloTwice []) ∧
    Authorised helloCrypto sampleKey
      ((lanSystem helloCrypto).final (lanStart sLanCfg true sampleKey) (helloTwice [])).log := by
  have hquiet : (lanSystem helloCrypto).Guarded (fun sys event ↦ quietAfterClose sys event = true)
      (lanStart sLanCfg true sampleKey) (helloTwice []) :=
    ⟨rfl, rfl, by decide +kernel, by decide +kernel, trivial⟩
  exact ⟨hquiet, lan_frames_authorised helloCrypto sLanCfg true sampleKey _ hquiet⟩

/-- One more byte, and the frame that closed the session is processed on the wiped slot,
with the sequence number that was used before. -/
theorem closed_session_processes_frame :
    ¬ Authorised helloCrypto sampleKey
      ((lanSystem helloCrypto).final (lanStart sLanCfg true sampleKey) (helloTwice [0])).log := by
  intro h
  have hlog : ((lanSystem helloCrypto).final (lanStart sLanCfg true sampleKey)
      (helloTwice [0])).log =
      [.added 0, .dispatched 0
        { freedSession with active := true, fd := 5, sequenceIn := 1 } ⟨1, 3, []⟩] ++
      .dispatched 0 { freedSession with sequenceIn := 1 } ⟨1, 3, []⟩ :: [] := by
    decide +kernel
  obtain ⟨hactive, -, -⟩ := h _ _ _ hlog
  cases hactive

end TuyaOpen.Lan
