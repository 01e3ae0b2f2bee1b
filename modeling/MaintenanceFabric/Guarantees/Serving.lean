import MaintenanceFabric.Lib.Lockstep
import MaintenanceFabric.Transport.Server

/-! # Serving a connection

    A server answers the frames a peer has sent, each once and in the order
    they came.  The first place where the bytes stop being a frame ends the
    connection: what was whole before it has been handled, what comes behind
    it is not even looked at.  The header has a checksum of its own, and that
    is what keeps a changed length from moving the next frame.
-/

namespace MaintenanceFabric

open Lib

namespace Transport

/-! ## Headers -/

theorem read_u16_take (p : Text) {n : Nat} (h : 2 ≤ n) : read_u16 (p.take n) = read_u16 p := by
  have h0 : 0 < n := by omega
  have h1 : 1 < n := by omega
  simp [read_u16, List.getD, h0, h1]

theorem read_u32_take (p : Text) {n : Nat} (h : 4 ≤ n) : read_u32 (p.take n) = read_u32 p := by
  have h0 : 0 < n := by omega
  have h1 : 1 < n := by omega
  have h2 : 2 < n := by omega
  have h3 : 3 < n := by omega
  simp [read_u32, read_u32_le, List.getD, h0, h1, h2, h3]

theorem read_u64_take (p : Text) {n : Nat} (h : 8 ≤ n) : read_u64 (p.take n) = read_u64 p := by
  unfold read_u64 read_u64_be
  rw [List.take_take, Nat.min_eq_left h]

/-- A header is read from its own bytes. -/
theorem decode_frame_header_take {bytes : Text} (h : kFrameHeaderBytes ≤ bytes.length) :
    decode_frame_header (bytes.take kFrameHeaderBytes) = decode_frame_header bytes := by
  have hlength : (bytes.take 32).length = 32 := List.length_take_of_le h
  have hlong : ¬ bytes.length < 32 := by
    simp only [kFrameHeaderBytes] at h
    omega
  have hcrc : (bytes.take 32).take 28 = bytes.take 28 := by
    rw [List.take_take, Nat.min_eq_left (by omega)]
  -- Every field ends within the 32 bytes, so it is read the same without what comes behind.
  have h32 : ∀ k, k ≤ 28 → read_u32 ((bytes.take 32).drop k) = read_u32 (bytes.drop k) := by
    intro k hk
    rw [List.drop_take, read_u32_take _ (by omega)]
  have h16 : ∀ k, k ≤ 30 → read_u16 ((bytes.take 32).drop k) = read_u16 (bytes.drop k) := by
    intro k hk
    rw [List.drop_take, read_u16_take _ (by omega)]
  have hid : read_u64 ((bytes.take 32).drop 12) = read_u64 (bytes.drop 12) := by
    rw [List.drop_take, read_u64_take _ (by omega)]
  unfold decode_frame_header
  simp only [kFrameHeaderBytes, hlength, hlong, hcrc, h32 28 (by omega), h32 8 (by omega),
    h32 20 (by omega), h16 2 (by omega), h16 4 (by omega), hid, read_u16_take bytes (n := 32)
    (by omega), lt_irrefl, decide_false]

/-- The header of a frame, with its own checksum. -/
def frame_header (frame : Frame) : Text :=
  frame_head frame ++ u32Bytes (crc32c (frame_head frame)).toNat

theorem encode_frame_eq (frame : Frame) :
    encode_frame frame = frame_header frame ++ frame.payload := by
  unfold encode_frame frame_header
  rw [List.append_assoc]

theorem frame_header_length (frame : Frame) : (frame_header frame).length = kFrameHeaderBytes := rfl

theorem decode_frame_header_own {frame : Frame} (h : validate_frame frame = .ok ()) :
    decode_frame_header (frame_header frame) = .ok
      { version := frame.version, type := frame.type, flags := frame.flags
        request_id := frame.request_id, payload_length := frame.payload.length } := by
  have hlong : kFrameHeaderBytes ≤ (encode_frame frame).length := by
    rw [encode_frame_length]
    omega
  rw [← decode_frame_header_encode h, ← decode_frame_header_take hlong, encode_frame_eq,
    List.take_left' (frame_header_length frame)]

/-- No byte of a header can change unnoticed. -/
theorem decode_frame_header_damaged {frame : Frame} {k : Nat} {byte : UInt8}
    (hk : k < kFrameHeaderBytes) (hne : (frame_header frame)[k]? ≠ some byte) :
    ∃ e, decode_frame_header ((frame_header frame).set k byte) = .error e := by
  have hhead : (frame_head frame).length = 28 := rfl
  have hsum : (u32Bytes (crc32c (frame_head frame)).toNat).length = 4 := rfl
  cases hread : decode_frame_header ((frame_header frame).set k byte) with
  | error e => exact ⟨e, rfl⟩
  | ok found =>
    simp only [decode_frame_header, Result.bind_eq_ok, refuse_if_eq_ok, decide_eq_false_iff_not,
      not_not] at hread
    obtain ⟨_, _, _, _, _, hcrc, _⟩ := hread
    exfalso
    unfold frame_header at hne hcrc
    -- The byte is one of those under the header checksum, or one of the checksum itself.
    by_cases h28 : k < 28
    · rw [List.getElem?_append_left (by omega)] at hne
      rw [List.set_append_left _ _ (by omega),
        List.take_left' (by rw [List.length_set]; exact hhead),
        List.drop_left' (by rw [List.length_set]; exact hhead), read_u32, read_u32_le_crc] at hcrc
      exact crc32c_set_ne (by omega) (byte_ne_getElem (by omega) hne) (UInt32.toNat_inj.mp hcrc)
    · rw [List.getElem?_append_right (by omega), hhead] at hne
      rw [List.set_append_right _ _ (by omega), hhead, List.take_left' hhead,
        List.drop_left' hhead] at hcrc
      have hlast : k - 28 < (u32Bytes (crc32c (frame_head frame)).toNat).length := by
        simp only [kFrameHeaderBytes] at hk
        omega
      exact read_u32_le_set_ne _ hlast (byte_ne_getElem hlast hne)
        (hcrc.symm.trans (read_u32_le_crc _).symm)

/-! ## One request -/

/-- A frame the server takes: valid, and no longer than it allows for. -/
structure Acceptable (max_payload : Nat) (frame : Frame) : Prop where
  valid : validate_frame frame = .ok ()
  fits : frame.payload.length ≤ max_payload

namespace TcpServer

variable {max_payload : Nat} {frame : Frame}

theorem header_is_there (bytes : Text) :
    ¬ (frame_header frame ++ bytes).length < kFrameHeaderBytes := by
  rw [List.length_append, frame_header_length]
  omega

/-- A whole frame is read, and the bytes behind it are left. -/
theorem read_request_frame (h : Acceptable max_payload frame) (rest : Text) :
    read_request max_payload (encode_frame frame ++ rest) = .request frame rest := by
  have hread : decode_frame (frame_header frame ++ frame.payload) = .ok frame := by
    rw [← encode_frame_eq]
    exact decode_encode_frame h.valid
  have hwhole : ¬ (frame.payload ++ rest).length < frame.payload.length := by
    rw [List.length_append]
    omega
  unfold read_request
  rw [encode_frame_eq, List.append_assoc, if_neg (header_is_there _)]
  simp only [List.take_left' (frame_header_length frame),
    List.drop_left' (frame_header_length frame),
    decode_frame_header_own h.valid, Nat.not_lt.mpr h.fits, hwhole, if_false, hread,
    List.take_left' rfl, List.drop_left' rfl]

/-- From a frame that has not arrived as a whole, nothing is read. -/
theorem read_request_cut (h : Acceptable max_payload frame) {cut : Text}
    (hfront : cut <+: encode_frame frame) (hproper : cut ≠ encode_frame frame) :
    ∃ n, read_request max_payload cut = .gone n := by
  by_cases hshort : cut.length < kFrameHeaderBytes
  · refine ⟨0, ?_⟩
    unfold read_request
    rw [if_pos hshort]
  · obtain ⟨more, hmore⟩ := hfront
    rw [encode_frame_eq] at hmore
    -- The header is there, and some of the payload is missing.
    have hheader : cut.take kFrameHeaderBytes = frame_header frame := by
      have htake := congrArg (List.take kFrameHeaderBytes) hmore
      rwa [List.take_append_of_le_length (by omega),
        List.take_left' (frame_header_length frame)] at htake
    have hrest : (cut.drop kFrameHeaderBytes).length < frame.payload.length := by
      have hlength := congrArg List.length hmore
      have hnonempty : 0 < more.length := by
        refine List.length_pos_iff.mpr ?_
        rintro rfl
        rw [List.append_nil, ← encode_frame_eq] at hmore
        exact hproper hmore
      rw [List.length_append, List.length_append, frame_header_length] at hlength
      rw [List.length_drop]
      omega
    refine ⟨kFrameHeaderBytes, ?_⟩
    unfold read_request
    simp only [hshort, if_false, hheader, decode_frame_header_own h.valid, Nat.not_lt.mpr h.fits,
      hrest, if_true]

/-- A damaged header is reported, whatever stands behind it. -/
theorem read_request_header_damaged {k : Nat} {byte : UInt8} (hk : k < kFrameHeaderBytes)
    (hne : (encode_frame frame)[k]? ≠ some byte) (more : Text) :
    ∃ e, read_request max_payload ((encode_frame frame).set k byte ++ more) = .garbled e := by
  have hheader : k < (frame_header frame).length := hk
  rw [encode_frame_eq, List.getElem?_append_left hheader] at hne
  obtain ⟨e, he⟩ := decode_frame_header_damaged hk hne
  have hlength : ((frame_header frame).set k byte).length = kFrameHeaderBytes := by
    rw [List.length_set, frame_header_length]
  refine ⟨e, ?_⟩
  unfold read_request
  rw [encode_frame_eq, List.set_append_left _ _ hheader, List.append_assoc, if_neg]
  · simp only [List.take_left' hlength, he]
  · rw [List.length_append, hlength]
    omega

/-- A damaged payload is dropped, at its own length. -/
theorem read_request_payload_damaged (h : Acceptable max_payload frame) {k : Nat} {byte : UInt8}
    (hk : kFrameHeaderBytes ≤ k) (hlast : k < (encode_frame frame).length)
    (hne : (encode_frame frame)[k]? ≠ some byte) (more : Text) :
    ∃ n, read_request max_payload ((encode_frame frame).set k byte ++ more) = .refused n := by
  obtain ⟨e, he⟩ := decode_frame_damaged hlast hne
  have hset : (encode_frame frame).set k byte =
      frame_header frame ++ frame.payload.set (k - kFrameHeaderBytes) byte := by
    rw [encode_frame_eq, List.set_append_right _ _ (by rw [frame_header_length]; exact hk),
      frame_header_length]
  have hlength : (frame.payload.set (k - kFrameHeaderBytes) byte).length = frame.payload.length :=
    List.length_set ..
  rw [hset] at he
  refine ⟨kFrameHeaderBytes + frame.payload.length, ?_⟩
  have hwhole : ¬ (frame.payload.set (k - kFrameHeaderBytes) byte ++ more).length <
      frame.payload.length := by
    rw [List.length_append, hlength]
    omega
  unfold read_request
  rw [hset, List.append_assoc, if_neg (header_is_there _)]
  simp only [List.take_left' (frame_header_length frame),
    List.drop_left' (frame_header_length frame),
    decode_frame_header_own h.valid, Nat.not_lt.mpr h.fits, hwhole, if_false,
    List.take_left' hlength, he]

/-! ## A run of requests -/

variable {σ : Type} (handler : Handler σ)

/-- The state behind the server after some requests. -/
def after (state : σ) (frames : List Frame) : σ :=
  frames.foldl (fun state frame => (answer handler frame state).2) state

/-- What it answers them. -/
def responses (state : σ) (frames : List Frame) : List Frame :=
  answers (fun state frame => (answer handler frame state).2)
    (fun state frame => (answer handler frame state).1) state frames

theorem serve_eq (c : Connection) (s : TcpServer σ) :
    serve handler max_payload c s =
      if (round handler max_payload c s).1 = true then
        serve handler max_payload (round handler max_payload c s).2.1
          (round handler max_payload c s).2.2
      else (round handler max_payload c s).2 := by
  rw [serve]
  split <;> rfl

/-- A frame is answered and counted; after a goodbye the connection ends. -/
theorem round_frame (h : Acceptable max_payload frame) (rest output : Text) (s : TcpServer σ) :
    ∃ stats : ServerStats, stats.handled = s.stats.handled + 1 ∧
      stats.failures = s.stats.failures ∧
      round handler max_payload { input := encode_frame frame ++ rest, output } s =
        (decide (frame.type ≠ .Goodbye),
          { input := rest, output := output ++ encode_frame (answer handler frame s.state).1 },
          { state := (answer handler frame s.state).2, stats }) := by
  refine ⟨{ s.stats with
      handled := s.stats.handled + 1
      frames_in := s.stats.frames_in + 1
      frames_out := s.stats.frames_out + 1
      bytes_in := s.stats.bytes_in + ((encode_frame frame ++ rest).length - rest.length)
      bytes_out := s.stats.bytes_out + (encode_frame (answer handler frame s.state).1).length },
    rfl, rfl, ?_⟩
  unfold round
  rw [read_request_frame h]
  rfl

/-- Only the last frame of a connection may take leave. -/
theorem serve_frames {frames : List Frame}
    (hframes : ∀ f ∈ frames, Acceptable max_payload f ∧ f.type ≠ .Goodbye) (tail output : Text)
    (s : TcpServer σ) :
    ∃ stats : ServerStats, stats.handled = s.stats.handled + frames.length ∧
      stats.failures = s.stats.failures ∧
      serve handler max_payload { input := frames.flatMap encode_frame ++ tail, output } s =
        serve handler max_payload
          { input := tail
            output := output ++ (responses handler s.state frames).flatMap encode_frame }
          { state := after handler s.state frames, stats } := by
  -- By induction on the frames: each is read, answered and counted, and the connection goes on.
  induction frames generalizing output s with
  | nil => exact ⟨s.stats, rfl, rfl, by simp [responses, answers, after]⟩
  | cons f frames ih =>
    obtain ⟨hacceptable, hstays⟩ := hframes f List.mem_cons_self
    obtain ⟨stats, hhandled, hfailures, hround⟩ :=
      round_frame handler hacceptable (frames.flatMap encode_frame ++ tail) output s
    obtain ⟨stats', hhandled', hfailures', hserve⟩ := ih
      (fun g hg => hframes g (List.mem_cons_of_mem _ hg))
      (output ++ encode_frame (answer handler f s.state).1)
      { state := (answer handler f s.state).2, stats }
    -- The counters of the first frame and of the rest add up.
    refine ⟨stats', ?_, ?_, ?_⟩
    · rw [hhandled', hhandled, List.length_cons]
      omega
    · rw [hfailures', hfailures]
    · rw [List.flatMap_cons, List.append_assoc, serve_eq, hround, if_pos (decide_eq_true hstays),
        hserve]
      simp [responses, answers, after]

/-! ## How a connection ends -/

/-- What a connection comes to: what was got across, what is behind the server, what was counted. -/
structure Ends (served : Connection × TcpServer σ) (output : Text) (state : σ)
    (handled failures : Nat) : Prop where
  output : served.1.output = output
  state : served.2.state = state
  handled : served.2.stats.handled = handled
  failures : served.2.stats.failures = failures

/-- A round that gives up is the last. -/
theorem serve_last {c : Connection} {s : TcpServer σ}
    (h : (round handler max_payload c s).1 = false) :
    serve handler max_payload c s = (round handler max_payload c s).2 := by
  rw [serve_eq, if_neg (by rw [h]; exact Bool.false_ne_true)]

theorem ends_gone {c : Connection} {n : Nat} (h : read_request max_payload c.input = .gone n)
    (s : TcpServer σ) :
    Ends (serve handler max_payload c s) c.output s.state s.stats.handled s.stats.failures := by
  have hround : round handler max_payload c s = (false, c, { s with stats :=
      { s.stats with bytes_in := s.stats.bytes_in + n } }) := by
    unfold round
    rw [h]
  rw [serve_last handler (by rw [hround]), hround]
  exact ⟨rfl, rfl, rfl, rfl⟩

theorem ends_refused {c : Connection} {n : Nat} (h : read_request max_payload c.input = .refused n)
    (s : TcpServer σ) :
    Ends (serve handler max_payload c s) c.output s.state s.stats.handled
      (s.stats.failures + 1) := by
  have hround : round handler max_payload c s = (false, c, { s with stats :=
      { s.stats with bytes_in := s.stats.bytes_in + n, failures := s.stats.failures + 1 } }) := by
    unfold round
    rw [h]
  rw [serve_last handler (by rw [hround]), hround]
  exact ⟨rfl, rfl, rfl, rfl⟩

theorem ends_garbled {c : Connection} {e : Error}
    (h : read_request max_payload c.input = .garbled e)
    (hsends : c.sends = []) (s : TcpServer σ) :
    Ends (serve handler max_payload c s) (c.output ++ encode_frame (error_frame 0 e)) s.state
      s.stats.handled (s.stats.failures + 1) := by
  have hround : round handler max_payload c s =
      (false, { c with output := c.output ++ encode_frame (error_frame 0 e) },
        { s with stats := { s.stats with
          bytes_in := s.stats.bytes_in + kFrameHeaderBytes
          failures := s.stats.failures + 1
          bytes_out := s.stats.bytes_out + (encode_frame (error_frame 0 e)).length } }) := by
    unfold round Connection.send_all
    rw [h, hsends]
  rw [serve_last handler (by rw [hround]), hround]
  exact ⟨rfl, rfl, rfl, rfl⟩

/-- A peer sends some frames the server takes, none of them a goodbye. They are answered once
    each, in order, and nothing else is: not a frame that breaks off anywhere, not a frame with a
    byte changed anywhere nor what comes behind it, and not what comes behind a goodbye. Only a
    changed header is answered, with an error. -/
theorem connection_exact (frames : List Frame)
    (hframes : ∀ f ∈ frames, Acceptable max_payload f ∧ f.type ≠ .Goodbye) (last : Frame)
    (hlast : Acceptable max_payload last) (s : TcpServer σ) :
    let sent := frames.flatMap encode_frame
    let told := (responses handler s.state frames).flatMap encode_frame
    let state := after handler s.state frames
    let handled := s.stats.handled + frames.length
    (∀ cut, cut <+: encode_frame last → cut ≠ encode_frame last →
      Ends (serve handler max_payload { input := sent ++ cut } s) told state handled
        s.stats.failures) ∧
    (∀ k < kFrameHeaderBytes, ∀ byte, (encode_frame last)[k]? ≠ some byte → ∀ more, ∃ e,
      Ends (serve handler max_payload
        { input := sent ++ ((encode_frame last).set k byte ++ more) } s)
        (told ++ encode_frame (error_frame 0 e)) state handled (s.stats.failures + 1)) ∧
    (∀ k, kFrameHeaderBytes ≤ k → k < (encode_frame last).length → ∀ byte,
      (encode_frame last)[k]? ≠ some byte → ∀ more,
      Ends (serve handler max_payload
        { input := sent ++ ((encode_frame last).set k byte ++ more) } s)
        told state handled (s.stats.failures + 1)) ∧
    (last.type = .Goodbye → ∀ more,
      Ends (serve handler max_payload { input := sent ++ (encode_frame last ++ more) } s)
        (told ++ encode_frame (answer handler last state).1) (answer handler last state).2
        (handled + 1) s.stats.failures) := by
  intro sent told state handled
  -- However the connection ends, the frames before are served first; then one round ends it.
  have hrun := fun tail => serve_frames handler hframes tail [] s
  refine ⟨?_, ?_, ?_, ?_⟩
  · intro cut hfront hproper
    obtain ⟨stats, hhandled, hfailures, hserve⟩ := hrun cut
    obtain ⟨n, hread⟩ := read_request_cut hlast hfront hproper
    rw [hserve, List.nil_append]
    have hends := ends_gone handler (c := { input := cut, output := told }) hread
      { state, stats }
    rwa [hhandled, hfailures] at hends
  · intro k hk byte hne more
    obtain ⟨stats, hhandled, hfailures, hserve⟩ := hrun ((encode_frame last).set k byte ++ more)
    have hgarbled : ∃ e, read_request max_payload ((encode_frame last).set k byte ++ more) =
        .garbled e := read_request_header_damaged hk hne more
    obtain ⟨e, hread⟩ := hgarbled
    rw [hserve, List.nil_append]
    have hends := ends_garbled handler
      (c := { input := (encode_frame last).set k byte ++ more, output := told }) hread rfl
      { state, stats }
    rw [hhandled, hfailures] at hends
    exact ⟨e, hends⟩
  · intro k hk hin byte hne more
    obtain ⟨stats, hhandled, hfailures, hserve⟩ := hrun ((encode_frame last).set k byte ++ more)
    obtain ⟨n, hread⟩ := read_request_payload_damaged hlast hk hin hne more
    rw [hserve, List.nil_append]
    have hends := ends_refused handler
      (c := { input := (encode_frame last).set k byte ++ more, output := told }) hread
      { state, stats }
    rwa [hhandled, hfailures] at hends
  · intro hgoodbye more
    obtain ⟨stats, hhandled, hfailures, hserve⟩ := hrun (encode_frame last ++ more)
    obtain ⟨stats', hhandled', hfailures', hround⟩ :=
      round_frame handler hlast more told { state, stats }
    rw [hserve, List.nil_append, serve_last handler (by rw [hround]; simp [hgoodbye]), hround]
    exact ⟨rfl, rfl, hhandled'.trans (by rw [hhandled]), hfailures'.trans hfailures⟩

/-- Two requests to a server that counts them, the second of them a goodbye; three bytes come
    behind it. -/
theorem connection_taking_leave :
    let handler : Handler Nat := fun _ prepared n => ((ok_status, prepared), n + 1)
    let ping : Frame := { type := .Heartbeat, request_id := 1 }
    let leave : Frame := { type := .Goodbye, request_id := 2 }
    Ends (serve handler 16 { input := encode_frame ping ++ (encode_frame leave ++ [1, 2, 3]) }
      { state := 0 })
      (encode_frame { ping with type := .Response } ++
        encode_frame { leave with type := .Response })
      2 2 0 := by
  intro handler ping leave
  have hping : Acceptable 16 ping := ⟨rfl, by decide⟩
  have hleave : Acceptable 16 leave := ⟨rfl, by decide⟩
  have hexact := connection_exact handler [ping]
    (by
      intro f hf
      rw [List.mem_singleton] at hf
      subst hf
      exact ⟨hping, by decide⟩)
    leave hleave { state := 0 }
  simpa [responses, answers, after, answer, handler, ok_status] using hexact.2.2.2 rfl [1, 2, 3]

end TcpServer

end Transport

end MaintenanceFabric
