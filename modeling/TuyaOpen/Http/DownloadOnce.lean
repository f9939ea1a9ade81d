import Mathlib.Order.Basic
import Mathlib.Data.List.Basic
import TuyaOpen.Http.Download
import TuyaOpen.Lib.Mealy

/-!
# The file is delivered once

The parts that the handler consumes are the file from its beginning on, whatever is lost on the way.
The size is announced at each connect, and the download is finished when all is received, also when
the handler has left some of it.
-/

namespace TuyaOpen.Http

abbrev LoggedDownload := HttpDownload × List DlEvent

def downloadMachine (file : List UInt8) (rangeLength : ℕ) :
    Mealy LoggedDownload DlEnv (List DlEvent) where
  step s env := (((downloadStep file rangeLength s.1 env).1,
    s.2 ++ (downloadStep file rangeLength s.1 env).2), (downloadStep file rangeLength s.1 env).2)

/-- What the handler has consumed. -/
def consumed (datas : List DlData) : List UInt8 := datas.flatMap DlData.consumed

/-- The events up to now: the start, the size once and before all data, the parts of the file at
their offsets, and when the loop is left one of `DL_EVENT_FINISH`, behind the whole file, and
`DL_EVENT_FAULT`. -/
structure DownloadSound (file : List UInt8) (returned : Bool) (events sizes : List DlEvent)
    (datas : List DlData) (ends : List DlEvent) : Prop where
  order : events = .start :: (sizes ++ datas.map .onData ++ ends)
  size : sizes = [] ∨ sizes = [.onFilesize file.length]
  sized : datas ≠ [] ∨ returned = true → sizes ≠ []
  delivered : consumed datas <+: file
  offsets : ∀ pre d post, datas = pre ++ d :: post → d.offset = (consumed pre).length
  ending : if returned = true then ends = [.finish] ∨ ends = [.fault] else ends = []
  finished : ends = [.finish] → consumed datas = file

/-- The size was announced. -/
def Sized (events : List DlEvent) : Prop := ∃ event ∈ events, event.isFilesize = true

instance (events : List DlEvent) : Decidable (Sized events) :=
  inferInstanceAs (Decidable (∃ event ∈ events, _))

/-- The size is not announced again; a range request that goes out begins below 2^31; the time is
not over before the size is announced; and the handler has left nothing when all is received. -/
structure DownloadSafe (file : List UInt8) (s : LoggedDownload) (env : DlEnv) : Prop where
  once : s.1.Sizes env → ¬Sized s.2
  range : s.1.state = .rangeRequest → s.1.rangeRequest file env ≠ none → s.1.receivedSize < 2 ^ 31
  known : s.1.Timely env ∨ s.1.Sizes env ∨ Sized s.2
  left : s.1.state = .complete → s.1.remainLen = 0

instance (file : List UInt8) (s : LoggedDownload) (env : DlEnv) :
    Decidable (DownloadSafe file s env) :=
  decidable_of_iff
    ((s.1.Sizes env → ¬Sized s.2) ∧
      (s.1.state = .rangeRequest → s.1.rangeRequest file env ≠ none → s.1.receivedSize < 2 ^ 31) ∧
      (s.1.Timely env ∨ s.1.Sizes env ∨ Sized s.2) ∧ (s.1.state = .complete → s.1.remainLen = 0))
    ⟨fun ⟨once, range, known, left⟩ ↦ ⟨once, range, known, left⟩,
      fun ⟨once, range, known, left⟩ ↦ ⟨once, range, known, left⟩⟩

theorem DownloadSound.data {file : List UInt8} {returned : Bool} {events sizes ends : List DlEvent}
    {datas : List DlData} (h : DownloadSound file returned events sizes datas ends) :
    events.filterMap DlEvent.data? = datas := by
  have hsizes : sizes.filterMap DlEvent.data? = [] := by
    rcases h.size with hsize | hsize <;> rw [hsize] <;> rfl
  have hends : ends.filterMap DlEvent.data? = [] := by
    have hending := h.ending
    split_ifs at hending
    · rcases hending with hending | hending <;> rw [hending] <;> rfl
    · rw [hending]
      rfl
  have hdatas : (datas.map DlEvent.onData).filterMap DlEvent.data? = datas := by
    rw [List.filterMap_map]
    exact List.filterMap_some
  rw [h.order, List.filterMap_cons_none rfl, List.filterMap_append, List.filterMap_append, hsizes,
    hends, hdatas, List.nil_append, List.append_nil]

theorem DownloadSound.filesize {file : List UInt8} {returned : Bool}
    {events sizes ends : List DlEvent}
    {datas : List DlData} (h : DownloadSound file returned events sizes datas ends) :
    events.filter DlEvent.isFilesize = sizes := by
  have hsizes : sizes.filter DlEvent.isFilesize = sizes := by
    rcases h.size with hsize | hsize <;> rw [hsize] <;> rfl
  have hends : ends.filter DlEvent.isFilesize = [] := by
    have hending := h.ending
    split_ifs at hending
    · rcases hending with hending | hending <;> rw [hending] <;> rfl
    · rw [hending]
      rfl
  have hdatas : (datas.map DlEvent.onData).filter DlEvent.isFilesize = [] := by
    rw [List.filter_eq_nil_iff]
    intro event hevent
    obtain ⟨d, -, rfl⟩ := List.mem_map.mp hevent
    simp [DlEvent.isFilesize]
  rw [h.order, List.filter_cons_of_neg (by simp [DlEvent.isFilesize]), List.filter_append,
    List.filter_append, hsizes, hends, hdatas, List.append_nil, List.append_nil]

/-! ## What was received -/

/-- The three counters, the front of the buffer, and the place of the server in the file. -/
structure Received (file : List UInt8) (rangeLength : ℕ) (s : HttpDownload) (datas : List DlData) :
    Prop where
  fileSize : s.fileSize = 0 ∨ s.fileSize = file.length
  known : s.state = .rangeRequest ∨ s.state = .dateGet → s.fileSize = file.length
  received : s.receivedSize ≤ file.length
  more : s.state ≠ .complete → s.receivedSize < file.length
  complete : s.state = .complete → s.receivedSize = file.length
  remain : s.remainLen ≤ s.receivedSize
  fits : s.remainLen ≤ rangeLength
  length : s.buffer.length = rangeLength + 1
  buffer : s.buffer.take s.remainLen = (file.drop (s.receivedSize - s.remainLen)).take s.remainLen
  consumed : consumed datas = file.take (s.receivedSize - s.remainLen)
  offsets : ∀ pre d post, datas = pre ++ d :: post → d.offset = (Http.consumed pre).length
  response : s.state = .dateGet → s.response.1 = s.receivedSize ∧ s.response.2 ≤ file.length

/-- The size was announced, and bytes are asked for or all have come. -/
def HttpDownload.Asks (s : HttpDownload) : Prop :=
  s.state = .rangeRequest ∨ s.state = .dateGet ∨ s.state = .complete

theorem consumed_append (datas : List DlData) (d : DlData) :
    consumed (datas ++ [d]) = consumed datas ++ d.consumed := by
  rw [consumed, List.flatMap_append, List.flatMap_singleton, consumed]

theorem offsets_append {datas : List DlData} {d : DlData}
    (h : ∀ pre d' post, datas = pre ++ d' :: post → d'.offset = (consumed pre).length)
    (hd : d.offset = (consumed datas).length) :
    ∀ pre d' post, datas ++ [d] = pre ++ d' :: post → d'.offset = (consumed pre).length := by
  intro pre d' post heq
  rcases List.eq_nil_or_concat post with rfl | ⟨post, last, rfl⟩
  · obtain ⟨rfl, hlast⟩ := List.append_inj' heq rfl
    cases hlast
    exact hd
  · rw [List.concat_eq_append, ← List.cons_append, ← List.append_assoc] at heq
    obtain ⟨rfl, -⟩ := List.append_inj' heq rfl
    exact h pre d' post rfl

section Step

variable {file : List UInt8} {rangeLength : ℕ} {s : HttpDownload} {env : DlEnv}
  {datas : List DlData}

theorem readSize_le_range (rangeLength : ℕ) (s : HttpDownload) (env : DlEnv) :
    s.readSize rangeLength env ≤ rangeLength - s.remainLen :=
  Nat.le_trans (Nat.min_le_right _ _) (Nat.min_le_left _ _)

theorem readSize_le_response (rangeLength : ℕ) (s : HttpDownload) (env : DlEnv) :
    s.readSize rangeLength env ≤ s.response.2 - s.response.1 :=
  Nat.le_trans (Nat.min_le_right _ _) (Nat.min_le_right _ _)

theorem Received.reconnect (h : Received file rangeLength s datas)
    (hstate : s.state ≠ .complete) : Received file rangeLength s.reconnect datas :=
  { h with
    known := fun hstate ↦ by rcases hstate with h | h <;> cases h
    more := fun _ ↦ h.more hstate
    complete := fun h ↦ by cases h
    response := fun h ↦ by cases h }

theorem Received.data (h : Received file rangeLength s datas) (env : DlEnv)
    (hstate : s.state = .dateGet) :
    (s.buffer.splice s.remainLen
        ((file.drop s.response.1).take (s.readSize rangeLength env))).take
          (s.readSize rangeLength env + s.remainLen) =
      (file.drop (s.receivedSize - s.remainLen)).take
      (s.readSize rangeLength env + s.remainLen) := by
  obtain ⟨hpos, hstop⟩ := h.response hstate
  have hread := readSize_le_response rangeLength s env
  have hlen : ((file.drop s.response.1).take (s.readSize rangeLength env)).length =
      s.readSize rangeLength env := by
    rw [List.length_take, List.length_drop]
    omega
  have hfits : s.remainLen ≤ s.buffer.length := by
    rw [h.length]
    exact Nat.le_succ_of_le h.fits
  have hfront := List.take_splice hfits ((file.drop s.response.1).take (s.readSize rangeLength env))
  rw [hlen, h.buffer, hpos] at hfront
  rw [Nat.add_comm, hpos, hfront, List.take_add, List.drop_drop, Nat.sub_add_cancel h.remain]

theorem Received.dateGet (h : Received file rangeLength s datas) (env : DlEnv)
    (hstate : s.state = .dateGet) :
    ∃ ds, (s.dateGet file rangeLength env).2 = ds.map .onData ∧
      Received file rangeLength (s.dateGet file rangeLength env).1 (datas ++ ds) := by
  have hdata := h.data env hstate
  obtain ⟨hpos, hstop⟩ := h.response hstate
  have hmore := h.more (by rw [hstate]; simp)
  have hrange := readSize_le_range rangeLength s env
  have hread := readSize_le_response rangeLength s env
  have hremain := h.remain
  have hfits := h.fits
  have hlength := h.length
  rw [HttpDownload.dateGet]
  dsimp only
  generalize hn : s.readSize rangeLength env = n at hdata hrange hread
  have hnew : ((file.drop s.response.1).take n).length = n := by
    rw [List.length_take, List.length_drop]
    omega
  by_cases hzero : n = 0
  · rw [if_pos hzero]
    exact ⟨[], rfl, (List.append_nil datas).symm ▸ h.reconnect (by rw [hstate]; simp)⟩
  · rw [if_neg hzero]
    generalize hbuffer : s.buffer.splice s.remainLen ((file.drop s.response.1).take n) =
      buffer at hdata
    obtain ⟨left, hleft⟩ : ∃ left, n + s.remainLen - env.consumes = left := ⟨_, rfl⟩
    have hleftLe : left ≤ n + s.remainLen := hleft ▸ Nat.sub_le _ _
    rw [hleft]
    have hbufferLength : buffer.length = rangeLength + 1 := by
      rw [← hbuffer, List.length_splice (by rw [hnew]; omega), hlength]
    have hfront : (buffer.drop (n + s.remainLen - left)).take left =
        (file.drop (s.receivedSize + n - left)).take left := by
      have htail := congrArg (List.drop (n + s.remainLen - left)) hdata
      have hkeep : n + s.remainLen - (n + s.remainLen - left) = left := by omega
      have hplace : s.receivedSize - s.remainLen + (n + s.remainLen - left) =
          s.receivedSize + n - left := by
        omega
      rw [List.drop_take, List.drop_take, List.drop_drop, hkeep, hplace] at htail
      exact htail
    have hfrontLength : ((buffer.drop (n + s.remainLen - left)).take left).length = left := by
      rw [List.length_take, List.length_drop, hbufferLength]
      omega
    refine ⟨[⟨buffer.take (n + s.remainLen), s.receivedSize - s.remainLen, s.eventFileSize, left⟩],
      rfl, ?_⟩
    exact
      { fileSize := h.fileSize
        known := fun _ ↦ h.known (.inr hstate)
        received := by dsimp only; omega
        more := by
          intro hnot
          dsimp only at hnot ⊢
          rw [← h.known (.inr hstate)]
          exact Nat.lt_of_not_le fun hle ↦ hnot (if_pos hle)
        complete := by
          intro hcomplete
          dsimp only at hcomplete ⊢
          have hle : s.fileSize ≤ s.receivedSize + n := by
            by_contra hle
            rw [if_neg hle] at hcomplete
            cases hcomplete
          rw [h.known (.inr hstate)] at hle
          omega
        remain := by dsimp only; omega
        fits := by dsimp only; omega
        length := by
          dsimp only
          rw [List.length_splice (by rw [hfrontLength]; omega), hbufferLength]
        buffer := by
          dsimp only
          have htake := List.take_splice (Nat.zero_le buffer.length)
            ((buffer.drop (n + s.remainLen - left)).take left)
          rw [hfrontLength, Nat.zero_add, List.take_zero, List.nil_append] at htake
          rw [htake, hfront]
        consumed := by
          dsimp only
          have hlen : (buffer.take (n + s.remainLen)).length = n + s.remainLen := by
            rw [List.length_take, hbufferLength]
            omega
          have hplace : s.receivedSize + n - left =
              s.receivedSize - s.remainLen + (n + s.remainLen - left) := by omega
          rw [consumed_append, h.consumed, DlData.consumed]
          dsimp only
          rw [hlen, hdata, List.take_take, Nat.min_eq_left (Nat.sub_le _ _), hplace, List.take_add]
        offsets := by
          apply offsets_append h.offsets
          rw [h.consumed, List.length_take]
          dsimp only
          omega
        response := by
          intro _
          dsimp only
          exact ⟨by omega, hstop⟩ }

theorem int32_of_lt {n : ℕ} (h : n < 2 ^ 31) : int32 n = (n : ℤ) := by
  unfold int32
  apply Int.bmod_eq_of_le_mul_two
  · omega
  · omega

theorem addRangeHeader_start {size : ℕ} {rangeStart rangeEnd : ℤ} {range : ℕ × ℕ}
    (h : addRangeHeader size rangeStart rangeEnd = some range) (hstart : 0 ≤ rangeStart) :
    range.1 = rangeStart.toNat ∧ range.2 ≤ size := by
  rw [addRangeHeader] at h
  split_ifs at h with hrefused hnegative hend
  · exact absurd hstart (Int.not_le_of_gt hnegative)
  · obtain rfl := Option.some.inj h
    exact ⟨rfl, Nat.le_refl _⟩
  · obtain rfl := Option.some.inj h
    exact ⟨rfl, Nat.min_le_right _ _⟩

/-- What the `switch` does: data or nothing, the size, or the end. -/
inductive Switched (file : List UInt8) (rangeLength : ℕ) (s : HttpDownload) (env : DlEnv)
    (datas : List DlData) : HttpDownload × List DlEvent → Prop where
  | moved {s' : HttpDownload} (ds : List DlData) (hsizes : ¬s.Sizes env)
      (hreceived : Received file rangeLength s' (datas ++ ds))
      (hreturned : s'.returned = s.returned)
      (hasks : s'.Asks ∨ ds ≠ [] → s.Asks) (htime : s.Asks ∨ s'.downloadTime = s.downloadTime) :
      Switched file rangeLength s env datas (s', ds.map .onData)
  | sized {s' : HttpDownload} (hsizes : s.Sizes env)
    (hreceived : Received file rangeLength s' datas)
      (hreturned : s'.returned = s.returned) :
      Switched file rangeLength s env datas (s', [.onFilesize file.length])
  | completed (hstate : s.state = .complete) :
      Switched file rangeLength s env datas ({ s with returned := true }, [.finish])

theorem Received.goTo (h : Received file rangeLength s datas) {state : DlState}
    (hstate : s.state = .networkConnect ∨ s.state = .networkReconnect ∨ s.state = .filesizeGet ∨
      s.state = .rangeRequest)
    (hnext : state = .networkConnect ∨ state = .networkReconnect ∨ state = .filesizeGet)
    (hsizes : ¬s.Sizes env) :
    Switched file rangeLength s env datas ({ s with state := state }, []) := by
  have hmore := h.more (by rcases hstate with h | h | h | h <;> simp [h])
  refine .moved [] hsizes ?_ rfl ?_ (.inr rfl)
  · rw [List.append_nil]
    exact
      { h with
        known := by rcases hnext with rfl | rfl | rfl <;> simp
        more := fun _ ↦ hmore
        complete := by rcases hnext with rfl | rfl | rfl <;> simp
        response := by rcases hnext with rfl | rfl | rfl <;> simp }
  · rcases hnext with rfl | rfl | rfl <;> simp [HttpDownload.Asks]

theorem Received.switchState (h : Received file rangeLength s datas) (env : DlEnv)
    (hrange : s.state = .rangeRequest → s.rangeRequest file env ≠ none → s.receivedSize < 2 ^ 31) :
    Switched file rangeLength s env datas (s.switchState file rangeLength env) := by
  have hdata : ∀ s' : HttpDownload, s'.state = .dateGet → s.Asks → ¬s.Sizes env →
      Received file rangeLength s' datas → s'.returned = s.returned →
      Switched file rangeLength s env datas (s'.dateGet file rangeLength env) := by
    intro s' hstate hasks hsizes h' hreturned
    obtain ⟨ds, hevents, hreceived⟩ := h'.dateGet env hstate
    have hsame : (s'.dateGet file rangeLength env).1.returned = s'.returned := by
      rw [HttpDownload.dateGet]
      dsimp only
      split_ifs <;> rfl
    have hmoved := Switched.moved ds hsizes hreceived (hsame.trans hreturned) (fun _ ↦ hasks)
      (.inl hasks)
    rw [← hevents] at hmoved
    exact hmoved
  have hsized : ∀ fileSize, s.Sizes env → fileSize = file.length →
      Switched file rangeLength s env datas ({ s with
        fileSize := fileSize, eventFileSize := fileSize, state := .rangeRequest },
          [.onFilesize fileSize]) := by
    rintro _ hsizes rfl
    have hmore := h.more (by rw [hsizes.1]; simp)
    exact .sized hsizes
      { h with
        fileSize := .inr rfl
        known := fun _ ↦ rfl
        more := fun _ ↦ hmore
        complete := fun h ↦ by cases h
        response := fun h ↦ by cases h } rfl
  rw [HttpDownload.switchState]
  cases hstate : s.state with
  | networkConnect =>
      have hsizes : ¬s.Sizes env := fun hsizes ↦ absurd (hstate.symm.trans hsizes.1) (by simp)
      apply h.goTo (.inl hstate) _ hsizes
      split_ifs
      · exact .inr (.inr rfl)
      · exact .inr (.inl rfl)
  | networkReconnect =>
      have hsizes : ¬s.Sizes env := fun hsizes ↦ absurd (hstate.symm.trans hsizes.1) (by simp)
      exact h.goTo (.inr (.inl hstate)) (.inl rfl) hsizes
  | filesizeGet =>
      dsimp only
      split_ifs with hfails hzero
      · have hsizes : ¬s.Sizes env := by
          intro hsizes
          rw [hsizes.2 hfails.1] at hfails
          exact absurd hfails.2 (by simp)
        exact h.goTo (.inr (.inr (.inl hstate))) (.inr (.inl rfl)) hsizes
      · refine hsized _ ⟨hstate, fun _ ↦ ?_⟩ rfl
        by_contra hfilesize
        exact hfails ⟨hzero, by simpa using hfilesize⟩
      · exact hsized _ ⟨hstate, fun h ↦ absurd h hzero⟩ (h.fileSize.resolve_left hzero)
  | rangeRequest =>
      have hsizes : ¬s.Sizes env := fun hsizes ↦ absurd (hstate.symm.trans hsizes.1) (by simp)
      dsimp only
      cases hrequest : s.rangeRequest file env with
      | none => exact h.goTo (.inr (.inr (.inr hstate))) (.inr (.inl rfl)) hsizes
      | some response =>
          have hlt := hrange hstate (by rw [hrequest]; simp)
          have hmore := h.more (by rw [hstate]; simp)
          have hplace : response.1 = s.receivedSize ∧ response.2 ≤ file.length := by
            rw [HttpDownload.rangeRequest] at hrequest
            split_ifs at hrequest
            rw [int32_of_lt hlt] at hrequest
            exact addRangeHeader_start hrequest (Int.natCast_nonneg _)
          refine hdata { s with response := response, state := .dateGet } rfl
            (.inl hstate) hsizes ?_ rfl
          exact
            { h with
              known := fun _ ↦ h.known (.inl hstate)
              more := fun _ ↦ hmore
              complete := fun h ↦ by cases h
              response := fun _ ↦ hplace }
  | dateGet =>
      exact hdata s hstate (.inr (.inl hstate))
        (fun hsizes ↦ absurd (hstate.symm.trans hsizes.1) (by simp)) h rfl
  | complete =>
      have hcompleted : Switched file rangeLength s env datas
          ({ s with returned := true }, [.finish]) :=
        .completed hstate
      rw [hstate] at hcompleted
      exact hcompleted

theorem Received.endLoop (h : Received file rangeLength s datas) :
    Received file rangeLength (s.endLoop env).1 datas := by
  rw [HttpDownload.endLoop]
  split_ifs
  · exact { h with }
  · exact { h with }

theorem Received.delivered (h : Received file rangeLength s datas) :
    Http.consumed datas <+: file := by
  rw [h.consumed]
  exact List.take_prefix _ _

end Step

/-! ## The invariant -/

structure DownloadInv (file : List UInt8) (rangeLength : ℕ) (s : LoggedDownload)
    (sizes : List DlEvent) (datas : List DlData) (ends : List DlEvent) : Prop where
  sound : DownloadSound file s.1.returned s.2 sizes datas ends
  received : Received file rangeLength s.1 datas
  asks : s.1.Asks → sizes ≠ []

section Inv

variable {file : List UInt8} {rangeLength : ℕ} {s : LoggedDownload} {env : DlEnv}
  {sizes ends : List DlEvent} {datas : List DlData}

theorem sized_iff (h : DownloadSound file s.1.returned s.2 sizes datas ends) :
    Sized s.2 ↔ sizes ≠ [] := by
  rw [← h.filesize, Sized, ne_eq, List.filter_eq_nil_iff]
  push Not
  exact Iff.rfl

theorem endLoop_cases (s : HttpDownload) (env : DlEnv) (hrunning : s.returned = false) :
    ((s.endLoop env).1.returned = false ∧ (s.endLoop env).2 = []) ∨
      (¬s.Timely env ∧ (s.endLoop env).1.returned = true ∧ (s.endLoop env).2 = [.fault]) := by
  rw [HttpDownload.endLoop, hrunning]
  by_cases htimely : s.Timely env
  · rw [if_pos (.inr htimely)]
    exact .inl ⟨rfl, rfl⟩
  · rw [if_neg (by simp [htimely])]
    exact .inr ⟨htimely, rfl, rfl⟩

theorem endLoop_asks (s : HttpDownload) (env : DlEnv) : (s.endLoop env).1.Asks ↔ s.Asks := by
  rw [HttpDownload.endLoop]
  split_ifs <;> exact Iff.rfl

theorem downloadInv_endLoop (env : DlEnv) {s' : HttpDownload} (events sizes : List DlEvent)
    (hrunning : s'.returned = false)
    (horder : events = .start :: (sizes ++ datas.map .onData))
    (hsize : sizes = [] ∨ sizes = [.onFilesize file.length]) (hsized : datas ≠ [] → sizes ≠ [])
    (hreceived : Received file rangeLength s' datas) (hasks : s'.Asks → sizes ≠ [])
    (hfault : ¬s'.Timely env → sizes ≠ []) :
    ∃ ends', DownloadInv file rangeLength ((s'.endLoop env).1, events ++ (s'.endLoop env).2)
      sizes datas ends' := by
  have hasks' : (s'.endLoop env).1.Asks → sizes ≠ [] := fun h ↦ hasks ((endLoop_asks s' env).mp h)
  rcases endLoop_cases s' env hrunning with ⟨hgoes, hevents⟩ | ⟨htimely, hends, hevents⟩
  · refine ⟨[], ⟨?_, hreceived.endLoop, hasks'⟩⟩
    refine ⟨?_, hsize, ?_, hreceived.delivered, hreceived.offsets, ?_, fun h ↦ by cases h⟩
    · dsimp only
      rw [horder, hevents, List.append_nil, List.append_nil]
    · rintro (h | h)
      · exact hsized h
      · rw [hgoes] at h
        cases h
    · rw [hgoes, if_neg (by simp)]
  · refine ⟨[.fault], ⟨?_, hreceived.endLoop, hasks'⟩⟩
    refine ⟨?_, hsize, fun _ ↦ hfault htimely, hreceived.delivered, hreceived.offsets, ?_,
      fun h ↦ by cases h⟩
    · dsimp only
      rw [horder, hevents, List.cons_append]
    · rw [hends, if_pos rfl]
      exact .inr rfl

theorem DownloadInv.step (h : DownloadInv file rangeLength s sizes datas ends)
    (hsafe : s.1.returned = false → DownloadSafe file s env) :
    ∃ sizes' datas' ends',
      DownloadInv file rangeLength ((downloadMachine file rangeLength).step s env).1 sizes' datas'
        ends' := by
  rw [downloadMachine]
  dsimp only
  rw [downloadStep]
  by_cases hreturned : s.1.returned = true
  · rw [if_pos hreturned, List.append_nil]
    exact ⟨sizes, datas, ends, h⟩
  · rw [if_neg hreturned]
    have hrunning : s.1.returned = false := by simpa using hreturned
    have hsafe := hsafe hrunning
    have hending := h.sound.ending
    rw [hrunning, if_neg (by simp)] at hending
    subst hending
    have hsizedIff := sized_iff h.sound
    have hswitched := h.received.switchState env hsafe.range
    generalize s.1.switchState file rangeLength env = r at hswitched
    dsimp only
    have horder := h.sound.order
    cases hswitched with
    | @moved s' ds hsizes hreceived hsame hasks htime =>
        have hds : ds ≠ [] → sizes ≠ [] := fun hds ↦ h.asks (hasks (.inr hds))
        obtain ⟨ends, hinv⟩ := downloadInv_endLoop env (s.2 ++ ds.map .onData) sizes
          (hsame.trans hrunning) (by rw [horder]; simp) h.sound.size
          (by
            intro hne
            by_cases hds' : ds = []
            · rw [hds', List.append_nil] at hne
              exact h.sound.sized (.inl hne)
            · exact hds hds')
          hreceived (fun h' ↦ h.asks (hasks (.inl h')))
          (by
            intro htimely
            rcases htime with hasks' | hsameTime
            · exact h.asks hasks'
            · rcases hsafe.known with h' | h' | h'
              · rw [HttpDownload.Timely, hsameTime] at htimely
                exact absurd h' htimely
              · exact absurd h' hsizes
              · exact hsizedIff.mp h')
        rw [List.append_assoc] at hinv
        exact ⟨sizes, datas ++ ds, ends, hinv⟩
    | @sized s' hsizes hreceived hsame =>
        have hnone : sizes = [] := by
          by_contra hne
          exact hsafe.once hsizes (hsizedIff.mpr hne)
        have hempty : datas = [] := by
          by_contra hne
          exact h.sound.sized (.inl hne) hnone
        subst hnone hempty
        obtain ⟨ends, hinv⟩ := downloadInv_endLoop env (s.2 ++ [.onFilesize file.length])
          [.onFilesize file.length] (hsame.trans hrunning) (by rw [horder]; simp) (.inr rfl)
          (fun _ ↦ by simp) hreceived (fun _ ↦ by simp) (fun _ ↦ by simp)
        rw [List.append_assoc] at hinv
        exact ⟨_, [], ends, hinv⟩
    | completed hstate =>
        have hend : (({ s.1 with returned := true } : HttpDownload).endLoop env) =
            ({ s.1 with returned := true, clock := env.now }, []) := by
          rw [HttpDownload.endLoop, if_pos (.inl rfl)]
        have hwhole : consumed datas = file := by
          rw [h.received.consumed, hsafe.left hstate, h.received.complete hstate]
          simp
        rw [hend]
        refine ⟨sizes, datas, [.finish], ⟨?_, { h.received with }, h.asks⟩⟩
        refine ⟨?_, h.sound.size, fun _ ↦ h.asks (.inr (.inr hstate)), h.sound.delivered,
          h.sound.offsets, ?_, fun _ ↦ hwhole⟩
        · rw [horder]
          simp
        · rw [if_pos rfl]
          exact .inl rfl

end Inv

/-! ## The loop ends -/

/-- The clock does not go back and stays in `TIME_T`, and `tal_system_sleep(3000)` sleeps. -/
structure DlClock (s : HttpDownload) (env : DlEnv) : Prop where
  time : s.clock ≤ env.time
  now : env.time ≤ env.now
  fits : env.now < 2 ^ 32
  sleeps : s.state = .networkReconnect → s.clock + 3 ≤ env.now

def DlState.rank : DlState → ℕ
  | .networkConnect => 3
  | .filesizeGet => 2
  | .rangeRequest => 1
  | .dateGet => 1
  | .networkReconnect => 0
  | .complete => 0

theorem DlState.rank_le (state : DlState) : state.rank ≤ 3 := by
  cases state <;> decide

/-- More than the iterations up to the end: bytes that have not come, and two for each second that
is left. -/
def HttpDownload.iterations (s : HttpDownload) (length : ℕ) : ℕ :=
  364 * (length - s.receivedSize) +
    (2 * (httpDownloadTimeout - (s.clock - s.downloadTime)) + s.state.rank)

/-- The time of the latest data. -/
structure TimeInv (s : HttpDownload) : Prop where
  before : s.downloadTime ≤ s.clock
  timely : s.returned = false → s.clock - s.downloadTime < httpDownloadTimeout

section Ends

variable {file : List UInt8} {rangeLength : ℕ} {s : HttpDownload} {env : DlEnv}

/-- An iteration goes on in the connection, connects again, or gets bytes. -/
inductive Progress (env : DlEnv) (s s' : HttpDownload) : Prop where
  | returned (hreturned : s'.returned = true)
  | goesOn (hreceived : s'.receivedSize = s.receivedSize) (htime : s'.downloadTime = s.downloadTime)
      (hrank : s'.state.rank < s.state.rank)
  | connects (hreceived : s'.receivedSize = s.receivedSize)
      (htime : s'.downloadTime = s.downloadTime) (hstate : s.state = .networkReconnect)
  | gets (hreceived : s.receivedSize < s'.receivedSize) (htime : s'.downloadTime = env.time)
      (hstate : s.state ≠ .complete)

theorem dateGet_progress (s s' : HttpDownload) (env : DlEnv) (hstate : s.state.rank = 1)
    (hreceived : s'.receivedSize = s.receivedSize) (htime : s'.downloadTime = s.downloadTime) :
    Progress env s (s'.dateGet file rangeLength env).1 := by
  rw [HttpDownload.dateGet]
  dsimp only
  split_ifs with hzero
  · refine .goesOn hreceived htime ?_
    rw [hstate]
    exact Nat.one_pos
  all_goals
    refine .gets ?_ ?_ ?_
    · dsimp only
      omega
    · rfl
    · intro hcomplete
      rw [hcomplete] at hstate
      exact absurd hstate (by decide)

theorem switchState_progress (file : List UInt8) (rangeLength : ℕ) (s : HttpDownload)
    (env : DlEnv) :
    Progress env s (s.switchState file rangeLength env).1 := by
  rw [HttpDownload.switchState]
  cases hstate : s.state with
  | networkConnect =>
      refine .goesOn rfl rfl ?_
      rw [hstate]
      dsimp only
      split_ifs <;> decide
  | networkReconnect => exact .connects rfl rfl hstate
  | filesizeGet =>
      have hrank : s.state.rank = 2 := by rw [hstate]; rfl
      dsimp only
      split_ifs
      · refine .goesOn rfl rfl ?_
        rw [hrank]
        exact Nat.zero_lt_two
      · refine .goesOn rfl rfl ?_
        rw [hrank]
        exact Nat.one_lt_two
      · refine .goesOn rfl rfl ?_
        rw [hrank]
        exact Nat.one_lt_two
  | rangeRequest =>
      dsimp only
      cases s.rangeRequest file env with
      | none =>
          refine .goesOn rfl rfl ?_
          rw [hstate]
          exact Nat.one_pos
      | some response => exact dateGet_progress s _ env (by rw [hstate]; rfl) rfl rfl
  | dateGet => exact dateGet_progress s s env (by rw [hstate]; rfl) rfl rfl
  | complete => exact .returned rfl

theorem downloadStep_iterations (s : HttpDownload) (env : DlEnv) {length : ℕ}
    (hrunning : s.returned = false)
    (hmore : s.state ≠ .complete → s.receivedSize < length) (hinv : TimeInv s)
    (hclock : DlClock s env) (hgoes : (downloadStep file rangeLength s env).1.returned = false) :
    TimeInv (downloadStep file rangeLength s env).1 ∧
      (downloadStep file rangeLength s env).1.iterations length < s.iterations length := by
  have hprogress := switchState_progress file rangeLength s env
  rw [downloadStep, if_neg (by simp [hrunning])] at hgoes ⊢
  generalize s.switchState file rangeLength env = r at hprogress hgoes
  obtain ⟨s', events⟩ := r
  dsimp only at hprogress hgoes ⊢
  have hend : s'.returned = false ∧ s'.Timely env ∧
      (s'.endLoop env).1 = { s' with clock := env.now } := by
    rw [HttpDownload.endLoop] at hgoes ⊢
    split_ifs at hgoes ⊢ with hends
    exact ⟨hgoes, hends.resolve_left (by rw [hgoes]; simp), rfl⟩
  obtain ⟨hreturned, htimely, heq⟩ := hend
  rw [heq]
  rw [HttpDownload.Timely, httpDownloadTimeout] at htimely
  have htime := hclock.time
  have hnow := hclock.now
  have hfits := hclock.fits
  have hbefore := hinv.before
  have hleft := hinv.timely hrunning
  rw [httpDownloadTimeout] at hleft
  have hrankLe := s'.state.rank_le
  have helapsed : s'.downloadTime ≤ env.now → env.now - s'.downloadTime < 180 := by omega
  rw [HttpDownload.iterations, HttpDownload.iterations, httpDownloadTimeout]
  cases hprogress with
  | returned h =>
      rw [hreturned] at h
      cases h
  | goesOn hreceived hsame hrank =>
      rw [hsame] at helapsed
      have hless := helapsed (by omega)
      refine ⟨⟨?_, fun _ ↦ ?_⟩, ?_⟩
      · dsimp only
        omega
      · dsimp only
        rw [hsame]
        exact hless
      · dsimp only
        rw [hreceived, hsame]
        omega
  | connects hreceived hsame hstate =>
      have hsleeps := hclock.sleeps hstate
      rw [hsame] at helapsed
      have hless := helapsed (by omega)
      refine ⟨⟨?_, fun _ ↦ ?_⟩, ?_⟩
      · dsimp only
        omega
      · dsimp only
        rw [hsame]
        exact hless
      · dsimp only
        rw [hreceived, hsame]
        omega
  | gets hreceived hsame hstate =>
      have hlt := hmore hstate
      rw [hsame] at helapsed
      have hless := helapsed hnow
      refine ⟨⟨?_, fun _ ↦ ?_⟩, ?_⟩
      · dsimp only
        rw [hsame]
        exact hnow
      · dsimp only
        rw [hsame]
        exact hless
      · dsimp only
        omega

end Ends

/-! ## Runs -/

/-- Behind `DL_EVENT_START`. -/
def downloadStart (fileSize : ℕ) (buffer : List UInt8) (clock : ℕ) : LoggedDownload :=
  (downloadInit fileSize buffer clock, [.start])

/-- An iteration that is made is safe. -/
def DownloadGuard (file : List UInt8) (s : LoggedDownload) (env : DlEnv) : Prop :=
  s.1.returned = false → DownloadSafe file s env

instance (file : List UInt8) (s : LoggedDownload) (env : DlEnv) :
    Decidable (DownloadGuard file s env) :=
  inferInstanceAs (Decidable (_ → _))

/-- An iteration that is made has such a clock. -/
def ClockGuard (s : LoggedDownload) (env : DlEnv) : Prop := s.1.returned = false → DlClock s.1 env

section Runs

variable {file : List UInt8} {rangeLength fileSize clock : ℕ} {buffer : List UInt8}

theorem downloadStart_inv (hfile : 0 < file.length) (hsize : fileSize = 0 ∨ fileSize = file.length)
    (hbuffer : buffer.length = rangeLength + 1) :
    DownloadInv file rangeLength (downloadStart fileSize buffer clock) [] [] [] where
  sound := by
    refine ⟨rfl, .inl rfl, ?_, List.nil_prefix, ?_, rfl, fun h ↦ by cases h⟩
    · rintro (h | h)
      · exact absurd rfl h
      · cases h
    · intro pre d post h
      simp at h
  received := by
    refine ⟨hsize, ?_, Nat.zero_le _, fun _ ↦ hfile, fun h ↦ (by cases h), Nat.zero_le _,
      Nat.zero_le _, hbuffer, rfl, rfl, ?_, fun h ↦ (by cases h)⟩
    · rintro (h | h) <;> cases h
    · intro pre d post h
      simp at h
  asks := by
    rintro (h | h | h) <;> cases h

def DownloadOk (file : List UInt8) (rangeLength : ℕ) (s : LoggedDownload) : Prop :=
  ∃ sizes datas ends, DownloadInv file rangeLength s sizes datas ends

theorem DownloadOk.step {s : LoggedDownload} {env : DlEnv} (h : DownloadOk file rangeLength s)
    (hsafe : DownloadGuard file s env) :
    DownloadOk file rangeLength ((downloadMachine file rangeLength).step s env).1 := by
  obtain ⟨sizes, datas, ends, hinv⟩ := h
  exact hinv.step hsafe

theorem DownloadOk.final {s : LoggedDownload} (h : DownloadOk file rangeLength s) {xs : List DlEnv}
    (hsafe : (downloadMachine file rangeLength).Guarded (DownloadGuard file) s xs) :
    DownloadOk file rangeLength ((downloadMachine file rangeLength).final s xs) :=
  Mealy.inv_final _ (fun _ _ hok hguard ↦ hok.step hguard) h hsafe

theorem returned_final (file : List UInt8) (rangeLength : ℕ) {s : LoggedDownload}
    (h : s.1.returned = true) (xs : List DlEnv) :
    ((downloadMachine file rangeLength).final s xs).1.returned = true := by
  induction xs generalizing s with
  | nil => exact h
  | cons env xs ih =>
      apply ih
      rw [downloadMachine]
      dsimp only
      rw [downloadStep, if_pos h]
      exact h

theorem download_bounded {s : LoggedDownload} {xs : List DlEnv} (h : DownloadOk file rangeLength s)
    (htime : TimeInv s.1) (hsafe : (downloadMachine file rangeLength).Guarded
    (DownloadGuard file) s xs) (hclock : (downloadMachine file rangeLength).Guarded ClockGuard s xs)
    (hgoes : ((downloadMachine file rangeLength).final s xs).1.returned = false) :
    xs.length ≤ s.1.iterations file.length := by
  induction xs generalizing s with
  | nil => exact Nat.zero_le _
  | cons env xs ih =>
      have hrunning : s.1.returned = false := by
        by_contra hreturned
        have hfinal := returned_final file rangeLength (by simpa using hreturned) (env :: xs)
        rw [hgoes] at hfinal
        cases hfinal
      have hnext : ((downloadMachine file rangeLength).step s env).1.1.returned = false := by
        by_contra hreturned
        have hfinal := returned_final file rangeLength (by simpa using hreturned) xs
        rw [Mealy.final_cons] at hgoes
        rw [hgoes] at hfinal
        cases hfinal
      have hmore : s.1.state ≠ .complete → s.1.receivedSize < file.length := by
        obtain ⟨sizes, datas, ends, hinv⟩ := h
        exact hinv.received.more
      obtain ⟨htime', hless⟩ :=
        downloadStep_iterations s.1 env hrunning hmore htime (hclock.1 hrunning) hnext
      have hrest := ih (h.step hsafe.1) htime' hsafe.2 hclock.2 hgoes
      rw [List.length_cons]
      exact Nat.lt_of_le_of_lt hrest hless

end Runs

/-- The file is delivered once, and the loop ends. -/
theorem download_once {file : List UInt8} (hfile : 0 < file.length) (rangeLength : ℕ) {fileSize : ℕ}
    (hsize : fileSize = 0 ∨ fileSize = file.length) {buffer : List UInt8}
    (hbuffer : buffer.length = configRangeLength rangeLength + 1) (clock : ℕ) (xs : List DlEnv)
    (hsafe : (downloadMachine file (configRangeLength rangeLength)).Guarded (DownloadGuard file)
      (downloadStart fileSize buffer clock) xs) :
    (∃ sizes datas ends, DownloadSound file
      ((downloadMachine file (configRangeLength rangeLength)).final
        (downloadStart fileSize buffer clock) xs).1.returned
      ((downloadMachine file (configRangeLength rangeLength)).final
        (downloadStart fileSize buffer clock) xs).2 sizes datas ends) ∧
    ((downloadMachine file (configRangeLength rangeLength)).Guarded ClockGuard
        (downloadStart fileSize buffer clock) xs → 364 * (file.length + 1) ≤ xs.length →
      ((downloadMachine file (configRangeLength rangeLength)).final
        (downloadStart fileSize buffer clock) xs).1.returned = true) := by
  have hstart : DownloadOk file (configRangeLength rangeLength)
      (downloadStart fileSize buffer clock) :=
    ⟨[], [], [], downloadStart_inv hfile hsize hbuffer⟩
  refine ⟨?_, fun hclock hlong ↦ ?_⟩
  · obtain ⟨sizes, datas, ends, hinv⟩ := hstart.final hsafe
    exact ⟨sizes, datas, ends, hinv.sound⟩
  · by_contra hgoes
    have htime : TimeInv (downloadStart fileSize buffer clock).1 :=
      ⟨Nat.le_refl _, fun _ ↦ by simp [downloadStart, downloadInit, httpDownloadTimeout]⟩
    have hbound := download_bounded hstart htime hsafe hclock (by simpa using hgoes)
    have hiterations : (downloadStart fileSize buffer clock).1.iterations file.length =
        364 * file.length + 363 := by
      simp [downloadStart, downloadInit, HttpDownload.iterations, httpDownloadTimeout, DlState.rank]
    omega

/-- An iteration in which all succeeds. -/
def someIteration (read consumes : ℕ) : DlEnv := ⟨true, true, true, read, consumes, 0, 0⟩

/-- The iterations up to the range request. -/
def someConnect : List DlEnv := [someIteration 0 0, someIteration 0 0]

/-- The handler leaves the second byte, and consumes it with the third. -/
def someDownload : List DlEnv :=
  someConnect ++ [someIteration 2 1, someIteration 2 2, someIteration 0 0]

theorem download_once_someDownload :
    (∃ sizes datas ends, DownloadSound [1, 2, 3]
      ((downloadMachine [1, 2, 3] (configRangeLength 2)).final
        (downloadStart 0 [0, 0, 0] 0) someDownload).1.returned
      ((downloadMachine [1, 2, 3] (configRangeLength 2)).final
        (downloadStart 0 [0, 0, 0] 0) someDownload).2 sizes datas ends) ∧
    ((downloadMachine [1, 2, 3] (configRangeLength 2)).Guarded ClockGuard
        (downloadStart 0 [0, 0, 0] 0) someDownload →
          364 * ([1, 2, 3].length + 1) ≤ someDownload.length →
      ((downloadMachine [1, 2, 3] (configRangeLength 2)).final
        (downloadStart 0 [0, 0, 0] 0) someDownload).1.returned = true) :=
  download_once (by decide) 2 (.inl rfl) rfl 0 someDownload (by decide)

def DeliveredOnce (file : List UInt8) (xs : List DlEnv) : Prop :=
  ∃ sizes datas ends, DownloadSound file
    ((downloadMachine file (configRangeLength 2)).final (downloadStart 0 [0, 0, 0] 0) xs).1.returned
    ((downloadMachine file (configRangeLength 2)).final (downloadStart 0 [0, 0, 0] 0) xs).2 sizes
      datas ends

/-- The connection is lost behind the size; the handler leaves the last byte; and no connect
succeeds. -/
theorem download_not_once :
    ¬DeliveredOnce [1, 2, 3]
      (someConnect ++ [someIteration 0 0, someIteration 0 0] ++ someConnect) ∧
    ¬DeliveredOnce [1, 2, 3]
      (someConnect ++ [someIteration 2 2, someIteration 2 0, someIteration 0 0]) ∧
    ¬DeliveredOnce [1, 2, 3] [⟨false, true, true, 0, 0, 0, 180⟩] := by
  refine ⟨?_, ?_, ?_⟩
  · rintro ⟨sizes, datas, ends, h⟩
    have hsize := h.size
    rw [← h.filesize] at hsize
    exact absurd hsize (by decide)
  · rintro ⟨sizes, datas, ends, h⟩
    have hending := h.ending
    rw [if_pos (by decide)] at hending
    rcases hending with hfinish | hfault
    · have hwhole := h.finished hfinish
      rw [← h.data] at hwhole
      exact absurd hwhole (by decide)
    · have hmem : DlEvent.fault ∈ DlEvent.start :: (sizes ++ datas.map .onData ++ ends) := by
        rw [hfault]
        simp
      rw [← h.order] at hmem
      exact absurd hmem (by decide)
  · rintro ⟨sizes, datas, ends, h⟩
    have hsized := h.sized (.inr rfl)
    rw [← h.filesize] at hsized
    exact absurd hsized (by decide)

end TuyaOpen.Http
