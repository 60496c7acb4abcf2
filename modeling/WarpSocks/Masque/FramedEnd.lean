import WarpSocks.Masque.Download
import WarpSocks.Masque.Framed

/-!
# The end of a framed H3 stream

The steps of the download do together what `drain_download` does at once: what the download has written, followed
by what it would still write, never changes (`outcome_next`).  So the pump succeeds only if the download does,
with the whole DATA payload in the pipe (`Faithful`), and the reader, which asks the pump at the end of the pipe,
sees a clean end only then.
-/

namespace WarpSocks.Masque.Framed

open Wire (Reader Writer wireOf)

/-! ### The steps of the download and the download -/

/-- The result of the rest of the download and all that is written in the end, from the inner loop on. -/
def payloadOutcome (w : List UInt8) (frameType remaining : Nat) (recv : Reader IoError) :
    Except IoError Unit × List UInt8 :=
  match drainPayload frameType remaining recv ⟨w, none⟩ with
  | (.error e, _, out) => (.error e, out.written)
  | (.ok (), recv, out) => ((drainDownload recv out).1, (drainDownload recv out).2.2.written)

/-- The result of the rest of the download and all that is written in the end, if `w` is written so far. -/
def Download.outcome (w : List UInt8) : Download → Except IoError Unit × List UInt8
  | .head recv => ((drainDownload recv ⟨w, none⟩).1, (drainDownload recv ⟨w, none⟩).2.2.written)
  | .length frameType recv =>
    match readVarint recv with
    | (.error e, _) => (.error e, w)
    | (.ok remaining, recv) => payloadOutcome w frameType remaining recv
  | .payload frameType remaining recv => payloadOutcome w frameType remaining recv
  | .writing frameType remaining rest recv => payloadOutcome (w ++ rest) frameType remaining recv
  | .done result => (result, w)

private theorem outcome_length (w : List UInt8) (frameType : Nat) (recv : Reader IoError) :
    (Download.length frameType recv).outcome w =
      match readVarint recv with
      | (.error e, _) => (.error e, w)
      | (.ok remaining, recv) => payloadOutcome w frameType remaining recv :=
  rfl

private theorem outcome_head (w : List UInt8) (recv : Reader IoError) : (Download.head recv).outcome w =
    match readVarintOrEof recv with
    | (.error e, _) => (.error e, w)
    | (.ok none, _) => (.ok (), w)
    | (.ok (some frameType), recv) => (Download.length frameType recv).outcome w := by
  show ((drainDownload recv ⟨w, none⟩).1, (drainDownload recv ⟨w, none⟩).2.2.written) = _
  rw [drainDownload_eq]
  rcases readVarintOrEof recv with ⟨e | ⟨_ | frameType⟩, recv₁⟩
  · rfl
  · rfl
  · dsimp only
    rw [outcome_length]
    unfold payloadOutcome
    rcases readVarint recv₁ with ⟨e | remaining, recv₂⟩
    · rfl
    · dsimp only
      rcases drainPayload frameType remaining recv₂ ⟨w, none⟩ with ⟨e | _, recv₃, out⟩
      · rfl
      · rfl

private theorem outcome_payload (w : List UInt8) (frameType remaining : Nat) (recv : Reader IoError) :
    payloadOutcome w frameType remaining recv =
      if remaining = 0 then (Download.head recv).outcome w
      else
        match recv.read (min remaining relayBuf) with
        | (.error e, _) => (.error e, w)
        | (.ok [], _) => (.error ⟨.unexpectedEof, "H3 帧负载意外结束"⟩, w)
        | (.ok (b :: bs), recv) =>
          payloadOutcome (if frameType = 0x00 then w ++ b :: bs else w) frameType
            (remaining - (bs.length + 1)) recv := by
  unfold payloadOutcome
  rw [drainPayload]
  by_cases hzero : remaining = 0
  · rw [if_pos hzero, if_pos hzero]
    rfl
  · rw [if_neg hzero, if_neg hzero]
    rcases recv.read (min remaining relayBuf) with ⟨e | ⟨_ | ⟨b, bs⟩⟩, recv₁⟩
    · rfl
    · rfl
    · by_cases hdata : frameType = 0x00
      · simp only [if_pos hdata, Writer.writeAll_of_none]
      · simp only [if_neg hdata]

/-- A read of the download leaves its outcome. -/
theorem outcome_next {w : List UInt8} {d d' : Download} (h : d.next = some d') : d'.outcome w = d.outcome w := by
  cases d with
  | head recv =>
    rw [outcome_head]
    unfold Download.next at h
    dsimp only at h
    rcases hread : readVarintOrEof recv with ⟨e | ⟨_ | frameType⟩, recv'⟩
    · rw [hread] at h
      cases h
      rfl
    · rw [hread] at h
      cases h
      rfl
    · rw [hread] at h
      cases h
      rfl
  | length frameType recv =>
    rw [outcome_length]
    unfold Download.next at h
    dsimp only at h
    rcases hread : readVarint recv with ⟨e | remaining, recv'⟩
    · rw [hread] at h
      cases h
      rfl
    · rw [hread] at h
      cases h
      rfl
  | payload frameType remaining recv =>
    show d'.outcome w = payloadOutcome w frameType remaining recv
    rw [outcome_payload]
    unfold Download.next at h
    dsimp only at h
    by_cases hzero : remaining = 0
    · rw [if_pos hzero] at h ⊢
      cases h
      rfl
    · rw [if_neg hzero] at h ⊢
      rcases hread : recv.read (min remaining relayBuf) with ⟨e | ⟨_ | ⟨b, bs⟩⟩, recv'⟩
      · rw [hread] at h
        cases h
        rfl
      · rw [hread] at h
        cases h
        rfl
      · rw [hread] at h
        dsimp only at h ⊢
        by_cases hdata : frameType = 0x00
        · rw [if_pos hdata] at h ⊢
          cases h
          rfl
        · rw [if_neg hdata] at h ⊢
          cases h
          rfl
  | writing frameType remaining rest recv => nomatch h
  | done result => nomatch h

private theorem prefix_payloadOutcome (w : List UInt8) (frameType remaining : Nat) (recv : Reader IoError) :
    w <+: (payloadOutcome w frameType remaining recv).2 := by
  unfold payloadOutcome
  by_cases hlt : recv.bytes.length < remaining
  · obtain ⟨e, recv', hcut, _⟩ := drainPayload_cut frameType remaining w recv hlt
    rw [hcut]
    exact List.prefix_append _ _
  · have hlen : (recv.bytes.take remaining).length = remaining := by
      rw [List.length_take]
      omega
    obtain ⟨recv', hrun, _, _⟩ := drainPayload_complete frameType (recv.bytes.take remaining) w
      (recv.bytes.drop remaining) recv (List.take_append_drop _ _).symm
    rw [hlen] at hrun
    rw [hrun]
    obtain ⟨p, hp⟩ := exists_carries recv'.bytes
    show w <+: (drainDownload recv' _).2.2.written
    rw [(drainDownload_carries recv' hp _).1, List.append_assoc]
    exact List.prefix_append _ _

/-- What is written stays the beginning of what is written in the end. -/
private theorem prefix_outcome (w : List UInt8) (d : Download) : w <+: (d.outcome w).2 := by
  cases d with
  | head recv =>
    obtain ⟨p, hp⟩ := exists_carries recv.bytes
    show w <+: (drainDownload recv _).2.2.written
    rw [(drainDownload_carries recv hp w).1]
    exact List.prefix_append _ _
  | length frameType recv =>
    rw [outcome_length]
    split
    · exact List.prefix_rfl
    · exact prefix_payloadOutcome _ _ _ _
  | payload frameType remaining recv => exact prefix_payloadOutcome _ _ _ _
  | writing frameType remaining rest recv =>
    exact (List.prefix_append w rest).trans (prefix_payloadOutcome _ _ _ _)
  | done result => exact List.prefix_rfl

/-! ### The invariant -/

/-- What the pump has done with the received stream. -/
structure Faithful (recv : Reader IoError) (s : State) : Prop where
  sound : s.stream.Sound
  flag : s.stream.flag = false
  /-- While the pump runs, the download goes on as it began, unless it could not write. -/
  running : s.stream.task = .running →
    s.download.outcome s.stream.pipe.sent = (Download.head recv).outcome [] ∨ ∃ e, s.download = .done (.error e)
  sent : s.stream.pipe.sent <+: ((Download.head recv).outcome []).2
  /-- Only the end of the pump closes the pipe. -/
  closed : s.stream.pipe.closed = true ↔ s.stream.task.gone = true
  ok : s.stream.task.result = some (.ok ()) → (Download.head recv).outcome [] = (.ok (), s.stream.pipe.sent)

variable {recv : Reader IoError} {s s' : State} {e : Event}

private theorem faithful_initial (recv : Reader IoError) : Faithful recv (.initial recv) :=
  ⟨Sync.Bridge.sound_new, rfl, fun _ => .inl rfl, List.nil_prefix, ⟨fun h => (nomatch h), fun h => (nomatch h)⟩,
    fun h => (nomatch h)⟩

/-- The pump returns, with success only if the download is complete. -/
private theorem Faithful.returned (h : Faithful recv s) (hrun : s.stream.task = .running)
    (result : Except IoError Unit)
    (hok : result = .ok () → (Download.head recv).outcome [] = (.ok (), s.stream.pipe.sent)) :
    Faithful recv (s.setTask (.returned result)) := by
  refine ⟨?_, h.flag, fun hr => (nomatch hr), h.sent, ?_, fun hr => hok (Option.some.inj hr)⟩
  · exact h.sound.extends (Sync.Bridge.extends_setTask (by rw [hrun]; exact fun _ hf => nomatch hf))
  · have hclosed := h.closed
    rw [hrun] at hclosed
    exact hclosed

private theorem Faithful.write (h : Faithful recv s) (hrun : s.stream.task = .running) {frameType remaining : Nat}
    {rest : List UInt8} {r : Reader IoError} (hwriting : s.download = .writing frameType remaining rest r)
    {download : Download} (hdownload : ∀ w, download.outcome w =
      (Download.writing frameType remaining (rest.drop (s.stream.pipe.room rest)) r).outcome w) :
    Faithful recv { s with stream := s.stream.setPipe (s.stream.pipe.write rest), download } := by
  have hopen : s.stream.pipe.closed = true → False := by
    intro hc
    have hg := h.closed.1 hc
    rw [hrun] at hg
    nomatch hg
  have hsame : download.outcome (s.stream.pipe.write rest).sent = s.download.outcome s.stream.pipe.sent := by
    rw [hdownload, hwriting]
    show payloadOutcome ((s.stream.pipe.write rest).sent ++ _) _ _ _ =
        payloadOutcome (s.stream.pipe.sent ++ rest) _ _ _
    rw [Sync.Pipe.sent_write, List.append_assoc, List.take_append_drop]
  have hout : s.download.outcome s.stream.pipe.sent = (Download.head recv).outcome [] := by
    rcases h.running hrun with hout | ⟨e, he⟩
    · exact hout
    · rw [hwriting] at he
      nomatch he
  refine ⟨?_, h.flag, fun _ => .inl (hsame.trans hout), ?_, h.closed, fun hr => ?_⟩
  · exact h.sound.extends (Sync.Bridge.extends_setPipe fun hc => (hopen hc).elim)
  · rw [← hsame.trans hout]
    exact prefix_outcome _ _
  · rw [show (s.stream.setPipe (s.stream.pipe.write rest)).task = .running from hrun] at hr
    nomatch hr

private theorem Faithful.pumpStep {st : PumpStep} (h : Faithful recv s) (hrun : s.stream.task = .running)
    (hstep : pumpStep s st = some s') : Faithful recv s' := by
  cases st with
  | receive =>
    obtain ⟨download, hnext, rfl⟩ := Option.map_eq_some_iff.1 hstep
    refine ⟨h.sound, h.flag, fun _ => ?_, h.sent, h.closed, h.ok⟩
    rcases h.running hrun with hout | ⟨e, he⟩
    · exact .inl ((outcome_next hnext).trans hout)
    · rw [he] at hnext
      nomatch hnext
  | write =>
    simp only [Framed.pumpStep] at hstep
    split at hstep
    · rename_i frameType remaining rest r hwriting
      split at hstep
      · nomatch hstep
      · cases hstep
        refine h.write hrun hwriting fun w => ?_
        split
        · rename_i hnil
          rw [hnil]
          show payloadOutcome w _ _ _ = payloadOutcome (w ++ []) _ _ _
          rw [List.append_nil]
        · rfl
    · nomatch hstep
  | writeFailed e =>
    simp only [Framed.pumpStep] at hstep
    split at hstep
    · cases hstep
      exact ⟨h.sound, h.flag, fun _ => .inr ⟨e, rfl⟩, h.sent, h.closed, h.ok⟩
    · nomatch hstep
  | uploadDone =>
    simp only [Framed.pumpStep] at hstep
    split at hstep
    · nomatch hstep
    · cases hstep
      exact ⟨h.sound, h.flag, h.running, h.sent, h.closed, h.ok⟩
  | uploadFailed e =>
    simp only [Framed.pumpStep] at hstep
    split at hstep
    · nomatch hstep
    · cases hstep
      exact h.returned hrun (.error e) fun hok => nomatch hok
  | finish =>
    simp only [Framed.pumpStep] at hstep
    split at hstep
    · rename_i result hdone
      cases hstep
      refine h.returned hrun result fun hok => ?_
      subst hok
      rcases h.running hrun with hout | ⟨e, he⟩
      · rw [← hout, hdone]
        rfl
      · rw [hdone] at he
        nomatch he
    · nomatch hstep
  | cancel e =>
    cases hstep
    exact h.returned hrun (.error e) fun hok => nomatch hok

private theorem Faithful.endTask (h : Faithful recv s) {stream : FramedStream}
    (hend : s.stream.endStep = some stream) :
    Faithful recv { s with stream } := by
  obtain ⟨hext, hresult, hgone, hrun, hflag, hsent, hclosed, hkeep⟩ := Sync.Bridge.extends_endStep hend
  refine ⟨h.sound.extends hext, hflag.trans h.flag, fun hr => ?_, ?_, ⟨fun _ => hgone, fun _ => ?_⟩, ?_⟩
  · rw [hr] at hgone
    nomatch hgone
  · rw [hsent]
    exact h.sent
  · cases hg : s.stream.task.gone with
    | false => exact hclosed hg
    | true => exact hkeep (h.closed.2 hg)
  · rw [hresult, hsent]
    exact h.ok

private theorem Faithful.read (h : Faithful recv s) {st : Sync.Bridge.Step} {stream : FramedStream}
    (hread : s.stream.readStep st = some stream) : Faithful recv { s with stream } := by
  obtain ⟨hsent, hclosed, hflag, htask⟩ := Sync.Bridge.frame_readStep hread
  refine ⟨h.sound.readStep hread, hflag.trans h.flag, ?_, ?_, ?_, ?_⟩
  · rw [htask, hsent]
    exact h.running
  · rw [hsent]
    exact h.sent
  · rw [hclosed, htask]
    exact h.closed
  · rw [htask, hsent]
    exact h.ok

private theorem Faithful.step (h : Faithful recv s) (hstep : step s e = some s') : Faithful recv s' := by
  cases e with
  | pump st =>
    simp only [Framed.step] at hstep
    split at hstep
    · rename_i hrun
      exact h.pumpStep hrun hstep
    · nomatch hstep
  | endTask =>
    obtain ⟨stream, hend, rfl⟩ := Option.map_eq_some_iff.1 hstep
    exact h.endTask hend
  | read st =>
    obtain ⟨stream, hread, rfl⟩ := Option.map_eq_some_iff.1 hstep
    exact h.read hread

theorem faithful_exec {es : List Event} (h : Machine.exec step (.initial recv) es = some s) : Faithful recv s :=
  Machine.exec_induction (P := Faithful recv) (fun _ _ _ hs h => hs.step h) (faithful_initial recv) h

/-! ### Why the pump has ended -/

/-- The error with which the event ends the pump. -/
def Event.failure : Event → Option IoError
  | .pump (.uploadFailed e) | .pump (.cancel e) => some e
  | _ => none

private theorem failure_eq_some {event : Event} {e : IoError} (h : event.failure = some e) :
    event = .pump (.uploadFailed e) ∨ event = .pump (.cancel e) := by
  unfold Event.failure at h
  split at h
  · cases h
    exact .inl rfl
  · cases h
    exact .inr rfl
  · nomatch h

/-- The pump has ended by the end of the download, or with the error of the event that ended it. -/
structure Caused (es : List Event) (s : State) : Prop where
  failed : ∀ e, (∃ event ∈ es, event.failure = some e) → s.stream.task.result = some (.error e)
  cause : ∀ result, s.stream.task.result = some result →
    s.download = .done result ∨ ∃ e, result = .error e ∧ ∃ event ∈ es, event.failure = some e

variable {es : List Event}

/-- A step that leaves the result and ends nothing. -/
private theorem Caused.keep (h : Caused es s) (hresult : s'.stream.task.result = s.stream.task.result)
    (hdownload : s.stream.task.result = none ∨ s'.download = s.download) (hfails : e.failure = none) :
    Caused (es ++ [e]) s' := by
  constructor
  · rintro x ⟨event, hmem, hx⟩
    rw [hresult]
    rcases List.mem_append.1 hmem with hmem | hmem
    · exact h.failed x ⟨event, hmem, hx⟩
    · rw [List.mem_singleton.1 hmem, hfails] at hx
      nomatch hx
  · intro result hr
    rw [hresult] at hr
    rcases hdownload with hnone | hd
    · rw [hnone] at hr
      nomatch hr
    · rw [hd]
      rcases h.cause result hr with hdone | ⟨x, rfl, event, hmem, hx⟩
      · exact .inl hdone
      · exact .inr ⟨x, rfl, event, List.mem_append_left _ hmem, hx⟩

/-- An event that ends the pump. -/
private theorem Caused.fail (h : Caused es s) (hrun : s.stream.task = .running) {x : IoError}
    (hx : e.failure = some x) :
    Caused (es ++ [e]) (s.setTask (.returned (.error x))) := by
  constructor
  · rintro y ⟨event, hmem, hy⟩
    rcases List.mem_append.1 hmem with hmem | hmem
    · have := h.failed y ⟨event, hmem, hy⟩
      rw [hrun] at this
      nomatch this
    · rw [List.mem_singleton.1 hmem, hx] at hy
      rw [← Option.some.inj hy]
      rfl
  · intro result hr
    exact .inr ⟨x, (Option.some.inj hr).symm, e, List.mem_append_right _ (List.mem_singleton.2 rfl), hx⟩

private theorem Caused.pumpStep {st : PumpStep} (h : Caused es s) (hrun : s.stream.task = .running)
    (hstep : pumpStep s st = some s') : Caused (es ++ [.pump st]) s' := by
  have hnone : s.stream.task.result = none := by rw [hrun]; rfl
  cases st with
  | receive =>
    obtain ⟨download, _, rfl⟩ := Option.map_eq_some_iff.1 hstep
    exact h.keep rfl (.inl hnone) rfl
  | write =>
    simp only [Framed.pumpStep] at hstep
    split at hstep
    · split at hstep
      · nomatch hstep
      · cases hstep
        exact h.keep rfl (.inl hnone) rfl
    · nomatch hstep
  | writeFailed e =>
    simp only [Framed.pumpStep] at hstep
    split at hstep
    · cases hstep
      exact h.keep rfl (.inl hnone) rfl
    · nomatch hstep
  | uploadDone =>
    simp only [Framed.pumpStep] at hstep
    split at hstep
    · nomatch hstep
    · cases hstep
      exact h.keep rfl (.inl hnone) rfl
  | uploadFailed e =>
    simp only [Framed.pumpStep] at hstep
    split at hstep
    · nomatch hstep
    · cases hstep
      exact h.fail hrun rfl
  | finish =>
    simp only [Framed.pumpStep] at hstep
    split at hstep
    · rename_i result hdone
      cases hstep
      constructor
      · rintro x ⟨event, hmem, hx⟩
        rcases List.mem_append.1 hmem with hmem | hmem
        · have := h.failed x ⟨event, hmem, hx⟩
          rw [hnone] at this
          nomatch this
        · rw [List.mem_singleton.1 hmem] at hx
          nomatch hx
      · intro r hr
        cases Option.some.inj hr
        exact .inl hdone
    · nomatch hstep
  | cancel e =>
    cases hstep
    exact h.fail hrun rfl

private theorem Caused.step (h : Caused es s) (hstep : step s e = some s') : Caused (es ++ [e]) s' := by
  cases e with
  | pump st =>
    simp only [Framed.step] at hstep
    split at hstep
    · rename_i hrun
      exact h.pumpStep hrun hstep
    · nomatch hstep
  | endTask =>
    obtain ⟨stream, hend, rfl⟩ := Option.map_eq_some_iff.1 hstep
    exact h.keep (Sync.Bridge.extends_endStep hend).2.1 (.inr rfl) rfl
  | read st =>
    obtain ⟨stream, hread, rfl⟩ := Option.map_eq_some_iff.1 hstep
    exact h.keep (congrArg Sync.Task.result (Sync.Bridge.frame_readStep hread).task) (.inr rfl) rfl

private theorem caused_exec (h : Machine.exec step (.initial recv) es = some s) : Caused es s := by
  refine Machine.exec_induction_events (P := Caused) (fun _ _ _ _ hs h => hs.step h) ⟨?_, ?_⟩ h
  · rintro x ⟨event, hmem, _⟩
    nomatch hmem
  · intro result hr
    nomatch hr

/-! ### The end of the stream -/

/-- The terminal result of the reader is that of the pump. -/
theorem Faithful.terminal (h : Faithful recv s) {result : Except IoError Unit}
    (hr : s.stream.terminal = some result) :
    s.stream.pipe.buffer = [] ∧ s.stream.task = .finished result := by
  obtain ⟨⟨_, hbuffer⟩, hcase⟩ := h.sound.terminal result hr
  rcases hcase with ⟨hflag, _⟩ | ⟨_, htask⟩
  · rw [h.flag] at hflag
    nomatch hflag
  · exact ⟨hbuffer, htask⟩

/-- A pump that succeeds has read a stream that ended well on a frame boundary. -/
theorem Faithful.complete (h : Faithful recv s) (hr : s.stream.task.result = some (.ok ())) :
    recv.fault = none ∧ ∃ rs, recv.bytes = wireOf rs := by
  obtain ⟨payload, hp⟩ := exists_carries recv.bytes
  exact (drainDownload_carries recv hp []).2 (congrArg Prod.fst (h.ok hr))

/-- A reader of a framed stream is given a prefix of the DATA payload, and the first terminal result is a clean
end only if the stream of the edge ended well on a frame boundary and the whole payload was given.  A pump that
fails, because of the stream, of the upload or of an abort, gives the reader its error behind what was bridged.
The end of the upload ends neither the download nor the pump. -/
theorem framed_end_honest (recv : Reader IoError) (es : List Event) (s : State)
    (h : Machine.exec step (.initial recv) es = some s) :
    ((∃ payload, Carries recv.bytes payload) ∧ ∀ payload, Carries recv.bytes payload →
      s.stream.pipe.taken <+: payload ∧
      (s.stream.terminal = some (.ok ()) →
        recv.fault = none ∧ (∃ rs, recv.bytes = wireOf rs) ∧ s.stream.pipe.taken = payload)) ∧
    (s.stream.task.result = some (.ok ()) → recv.fault = none ∧ ∃ rs, recv.bytes = wireOf rs) ∧
    (∀ e, .pump (.uploadFailed e) ∈ es ∨ .pump (.cancel e) ∈ es → s.stream.task.result = some (.error e)) ∧
    (∀ e, s.stream.task.result = some (.error e) → ∀ result, s.stream.terminal = some result → result = .error e) ∧
    (∀ e, s.stream.task = .finished (.error e) → s.stream.terminal = none → s.stream.phase = .idle → ∀ n ≠ 0,
      (s.stream.pipe.buffer ≠ [] → ∃ pipe, s.stream.pipe.read n = .bytes pipe) ∧
      (s.stream.pipe.buffer = [] → ∃ stream,
        Machine.exec Sync.Bridge.readStep s.stream [.read n, .loadFlag, .pollTask] = some stream ∧
        stream.terminal = some (.error e))) ∧
    (∀ s', step s (.pump .uploadDone) = some s' → s'.stream = s.stream ∧ s'.download = s.download) ∧
    (∀ result, s.stream.task.result = some result → s.download = .done result ∨
      ∃ e, result = .error e ∧ (.pump (.uploadFailed e) ∈ es ∨ .pump (.cancel e) ∈ es)) := by
  have hs := faithful_exec h
  have hc := caused_exec h
  refine ⟨⟨exists_carries recv.bytes, fun payload hp => ?_⟩, hs.complete, ?_, ?_, ?_, ?_, ?_⟩
  · have hall : ((Download.head recv).outcome []).2 = payload := (drainDownload_carries recv hp []).1
    refine ⟨?_, fun hr => ?_⟩
    · rw [← hall]
      exact (List.prefix_append _ _).trans hs.sent
    · obtain ⟨hbuffer, htask⟩ := hs.terminal hr
      have hresult : s.stream.task.result = some (.ok ()) := by rw [htask]; rfl
      obtain ⟨hfault, hframes⟩ := hs.complete hresult
      refine ⟨hfault, hframes, ?_⟩
      rw [← hall, hs.ok hresult]
      exact Sync.Pipe.taken_of_drained hbuffer
  · rintro e (he | he)
    · exact hc.failed e ⟨_, he, rfl⟩
    · exact hc.failed e ⟨_, he, rfl⟩
  · intro e he result hr
    rw [(hs.terminal hr).2] at he
    exact Option.some.inj he
  · intro e htask hnone hidle n hn
    refine ⟨fun hb => ⟨_, if_pos hb⟩, fun hb => ?_⟩
    have hclosed : s.stream.pipe.closed = true := hs.closed.2 (by rw [htask]; rfl)
    obtain ⟨stream, hexec, ht, _⟩ := hs.sound.reports hn hidle hnone hclosed hb hs.flag htask
    exact ⟨stream, hexec, ht⟩
  · intro s' hstep
    simp only [Framed.step] at hstep
    split at hstep
    · simp only [Framed.pumpStep] at hstep
      split at hstep
      · nomatch hstep
      · cases hstep
        exact ⟨rfl, rfl⟩
    · nomatch hstep
  · intro result hr
    rcases hc.cause result hr with hdone | ⟨e, rfl, event, hmem, hx⟩
    · exact .inl hdone
    · refine .inr ⟨e, rfl, ?_⟩
      rcases failure_eq_some hx with rfl | rfl
      · exact .inl hmem
      · exact .inr hmem

/-- A stream that the edge resets. -/
def resetStream : Reader IoError := ⟨[], ⟨fun _ => 1, fun _ => Nat.one_pos⟩, some ⟨.connectionReset, "reset"⟩⟩

/-- The stream is reset behind the end of the upload; the reader asks once before the result of the pump is
visible. -/
def resetByEdge : List Event :=
  [.pump .uploadDone, .pump .receive, .pump .finish, .endTask, .read (.read 8), .read .loadFlag, .read .pollTask,
    .endTask, .read (.read 8), .read .loadFlag, .read .pollTask]

theorem framed_end_honest_reset : ∃ s, Machine.exec step (.initial resetStream) resetByEdge = some s ∧
    s.stream.terminal = some (.error ⟨.connectionReset, "reset"⟩) ∧ s.stream.task.result ≠ some (.ok ()) := by
  refine ⟨_, rfl, rfl, fun h => ?_⟩
  have hfault : resetStream.fault = none := ((framed_end_honest resetStream resetByEdge _ rfl).2.1 h).1
  nomatch hfault

end WarpSocks.Masque.Framed
