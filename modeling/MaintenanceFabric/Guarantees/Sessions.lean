import MaintenanceFabric.Guarantees.Serving
import MaintenanceFabric.Store.Codec
import MaintenanceFabric.Transport.Client

/-! # Calls on a line

    A call may break off in either direction after any number of bytes, and
    the server may get to a request when its call has long failed.  Until a
    call fails, the line is empty between two calls: so every call that
    returned is one request handled, with the answer of that request.  The
    call that fails leaves its request on the line, to be handled once or not
    at all.  What comes after it on the same line may be told anything, but
    while the sends are whole the requests are still handled in order.
-/

namespace MaintenanceFabric

open Lib

namespace Transport

variable {σ : Type} {handler : Handler σ} {max_payload : Nat} {request : Frame}

/-! ## What the client reads -/

/-- Only the header of a frame that is valid decodes. -/
theorem valid_of_decode_header {frame : Frame} (hfit : frame.payload.length < u32_range)
    {head : FrameHeader} (h : decode_frame_header (frame_header frame) = .ok head) :
    validate_frame frame = .ok () := by
  have hver : read_u16 ((frame_header frame).drop 2) = frame.version.toNat := by
    rw [show (frame_header frame).drop 2 = u16Bytes frame.version.toNat ++ _ from rfl,
      read_u16_u16Bytes, Nat.mod_eq_of_lt (UInt16.toNat_lt _)]
  have htype : read_u16 ((frame_header frame).drop 4) = frame.type.code := by
    rw [show (frame_header frame).drop 4 = u16Bytes frame.type.code ++ _ from rfl,
      read_u16_u16Bytes, Nat.mod_eq_of_lt frame.type.code_lt]
  have hmod : frame.payload.length % 4294967296 = frame.payload.length := Nat.mod_eq_of_lt hfit
  have hlen : read_u32 ((frame_header frame).drop 20) = frame.payload.length := by
    rw [show (frame_header frame).drop 20 = u32Bytes frame.payload.length ++ _ from rfl,
      read_u32, read_u32_le_u32Bytes, hmod]
  simp only [decode_frame_header, Result.bind_eq_ok, refuse_if_eq_ok, hver, htype, hlen] at h
  obtain ⟨_, _, _, _, _, _, _, hknown, _, hsize, _, hversion, _⟩ := h
  simp only [validate_frame, Result.bind_eq_ok, refuse_if_eq_ok]
  exact ⟨(), hknown, (), hversion, hsize⟩

/-- What has come in of a frame starts with its header, once it is long enough. -/
theorem header_of_front {frame : Frame} {bytes : Text} (hfront : bytes <+: encode_frame frame)
    (hlong : kFrameHeaderBytes ≤ bytes.length) : bytes.take kFrameHeaderBytes =
      frame_header frame := by
  obtain ⟨more, hmore⟩ := hfront
  have htake := congrArg (List.take kFrameHeaderBytes) hmore
  rwa [List.take_append_of_le_length hlong, encode_frame_eq,
    List.take_left' (frame_header_length frame)] at htake

namespace TcpClient

/-- From the first bytes of a frame the client reads nothing yet, or an error, or that frame when
    the bytes are all there. -/
theorem receive_front (request : Frame) {found : Frame} (hfit : found.payload.length < u32_range)
    {input : Text} (hfront : input <+: encode_frame found) :
    receive request input = .waits ∨ (∃ e rest, receive request input = .read (.error e) rest) ∨
      (receive request input = .read (.ok found) [] ∧ input = encode_frame found) := by
  unfold receive
  by_cases hshort : input.length < kFrameHeaderBytes
  · exact .inl (if_pos hshort)
  · have hheader := header_of_front hfront (by omega)
    simp only [hshort, if_false, hheader]
    cases hdecoded : decode_frame_header (frame_header found) with
    | error e => exact .inr (.inl ⟨e, _, rfl⟩)
    | ok head =>
      -- The header was one, so the frame is valid and its payload is as long as it says.
      have hvalid := valid_of_decode_header hfit hdecoded
      rw [decode_frame_header_own hvalid, Except.ok.injEq] at hdecoded
      subst hdecoded
      by_cases hid : found.request_id ≠ request.request_id
      · exact .inr (.inl ⟨_, _, if_pos hid⟩)
      · simp only [hid, if_false]
        by_cases hcut : (input.drop kFrameHeaderBytes).length < found.payload.length
        · exact .inl (if_pos hcut)
        -- The payload is there to its last byte, so nothing of the frame is missing.
        · have hwhole : input = encode_frame found := by
            refine hfront.eq_of_length ?_
            have hle := hfront.length_le
            rw [encode_frame_length] at hle ⊢
            rw [List.length_drop] at hcut
            omega
          refine .inr (.inr ⟨?_, hwhole⟩)
          rw [if_neg hcut, hwhole, encode_frame_eq, List.drop_left' (frame_header_length found),
            List.take_length, List.drop_length, ← encode_frame_eq, decode_encode_frame hvalid]

/-- From a whole frame that answers the request the client reads that frame. -/
theorem receive_whole {found : Frame} (hvalid : validate_frame found = .ok ())
    (hid : found.request_id = request.request_id) :
    receive request (encode_frame found) = .read (.ok found) [] := by
  have hlong : ¬ (frame_header found ++ found.payload).length < kFrameHeaderBytes :=
    TcpServer.header_is_there found.payload
  unfold receive
  rw [encode_frame_eq]
  simp only [hlong, if_false, List.take_left' (frame_header_length found),
    List.drop_left' (frame_header_length found), decode_frame_header_own hvalid, hid, ne_eq,
    not_true, lt_irrefl, List.take_length, List.drop_length]
  rw [← encode_frame_eq, decode_encode_frame hvalid]

end TcpClient

/-! ## What the server does -/

namespace TcpServer

/-- A request that is too long for the server is not read, whatever comes behind it. -/
theorem read_request_oversized (hvalid : validate_frame request = .ok ())
    (hsize : max_payload < request.payload.length) {input : Text}
    (hheader : kFrameHeaderBytes ≤ input.length →
      input.take kFrameHeaderBytes = frame_header request) :
    (∃ n, read_request max_payload input = .gone n) ∨
      ∃ n, read_request max_payload input = .refused n := by
  unfold read_request
  by_cases hshort : input.length < kFrameHeaderBytes
  · exact .inl ⟨0, if_pos hshort⟩
  · right
    refine ⟨kFrameHeaderBytes, ?_⟩
    simp only [hshort, if_false, hheader (by omega), decode_frame_header_own hvalid, gt_iff_lt,
      hsize, if_true]

/-- A request that has been read is answered, as far as the send gets. -/
theorem reply_settles (handler : Handler σ) (request : Frame) (c : Connection) (s : TcpServer σ) :
    (reply handler request c s).2.2.state = (answer handler request s.state).2 ∧
      ∃ sent, sent <+: encode_frame (answer handler request s.state).1 ∧
        (reply handler request c s).2.1.output = c.output ++ sent := by
  unfold reply Connection.send_all
  cases c.sends with
  | nil => exact ⟨rfl, _, List.prefix_rfl, rfl⟩
  | cons send sends =>
    cases send with
    | none => exact ⟨rfl, _, List.prefix_rfl, rfl⟩
    | some n => exact ⟨rfl, _, List.take_prefix n _, rfl⟩

end TcpServer

namespace Wire

variable {w w' : Wire σ} {rest : Text}

/-- Neither what is on the line nor what has been handled has changed. -/
structure Still (w w' : Wire σ) : Prop where
  up : w'.up = w.up
  down : w'.down = w.down
  handled : w'.handled = w.handled

theorem Still.refl (w : Wire σ) : Still w w := ⟨rfl, rfl, rfl⟩

/-- The request at the front of the line has been handled; its answer is on its way, as far as the
    send got. -/
structure Serves (handler : Handler σ) (request : Frame) (rest : Text) (w w' : Wire σ) : Prop where
  up : w'.up = rest
  handled : w'.handled = w.handled ++ [(request, w.server.state)]
  down : ∃ sent, sent <+: encode_frame (answer handler request w.server.state).1 ∧
    w'.down = w.down ++ sent

variable (handler max_payload)

theorem serve_gone {n : Nat} (h : TcpServer.read_request max_payload w.up = .gone n)
    (sent : Option Nat) : w.serve handler max_payload sent = w := by
  unfold serve
  rw [h]

theorem serve_refused {n : Nat} (h : TcpServer.read_request max_payload w.up = .refused n)
    (sent : Option Nat) : Still w (w.serve handler max_payload sent) := by
  unfold serve TcpServer.round
  rw [h]
  exact ⟨rfl, rfl, rfl⟩

theorem serve_request (h : TcpServer.read_request max_payload w.up = .request request rest)
    (sent : Option Nat) : Serves handler request rest w (w.serve handler max_payload sent) := by
  have hround : ∃ stats, TcpServer.round handler max_payload
      { input := w.up, output := w.down, sends := [sent] } w.server =
      TcpServer.reply handler request { input := rest, output := w.down, sends := [sent] }
        { state := w.server.state, stats } := by
    unfold TcpServer.round
    rw [h]
    exact ⟨_, rfl⟩
  obtain ⟨stats, hround⟩ := hround
  obtain ⟨-, hdown⟩ := TcpServer.reply_settles handler request
    { input := rest, output := w.down, sends := [sent] } { state := w.server.state, stats }
  unfold serve
  rw [h]
  simp only [hround]
  exact ⟨TcpServer.reply_input handler request _ _, rfl, hdown⟩

/-- From an empty line the server reads nothing. -/
theorem next_silent (hup : w.up = []) (d : Doing σ) : Still w (w.next handler max_payload d) := by
  cases d with
  | serve sent =>
    have hread : TcpServer.read_request max_payload w.up = .gone 0 := by
      rw [hup]
      rfl
    unfold next
    simp only [serve_gone handler max_payload hread, ite_self]
    exact .refl w
  | leave => exact ⟨rfl, rfl, rfl⟩
  | meanwhile change => exact ⟨rfl, rfl, rfl⟩

/-- From a line that starts with a request the server reads that request or nothing. -/
theorem next_request (hvalid : validate_frame request = .ok ())
    (hup : w.up = encode_frame request ++ rest) (d : Doing σ) :
    Still w (w.next handler max_payload d) ∨
      Serves handler request rest w (w.next handler max_payload d) := by
  cases d with
  | leave => exact .inl ⟨rfl, rfl, rfl⟩
  | meanwhile change => exact .inl ⟨rfl, rfl, rfl⟩
  | serve sent =>
    unfold next
    simp only
    by_cases hserving : w.serving = true
    · simp only [hserving, if_true]
      -- A payload above the limit of the server is refused once its header is there.
      by_cases hsize : request.payload.length ≤ max_payload
      · refine .inr (serve_request handler max_payload ?_ sent)
        rw [hup]
        exact TcpServer.read_request_frame ⟨hvalid, hsize⟩ rest
      · have hheader : kFrameHeaderBytes ≤ w.up.length →
            w.up.take kFrameHeaderBytes = frame_header request := by
          intro _
          rw [hup, encode_frame_eq, List.append_assoc,
            List.take_left' (frame_header_length request)]
        left
        obtain ⟨n, hread⟩ | ⟨n, hread⟩ :=
          TcpServer.read_request_oversized hvalid (Nat.lt_of_not_le hsize) hheader
        · rw [serve_gone handler max_payload hread]
          exact .refl w
        · exact serve_refused handler max_payload hread sent
    · simp only [hserving]
      exact .inl (.refl w)

/-- From the front of a request the server reads all of it or nothing. -/
theorem next_front (hvalid : validate_frame request = .ok ())
    (hfront : w.up <+: encode_frame request) (d : Doing σ) :
    Still w (w.next handler max_payload d) ∨
      Serves handler request [] w (w.next handler max_payload d) := by
  by_cases hwhole : w.up = encode_frame request
  · exact next_request handler max_payload hvalid (by rw [hwhole, List.append_nil]) d
  · left
    cases d with
    | leave => exact ⟨rfl, rfl, rfl⟩
    | meanwhile change => exact ⟨rfl, rfl, rfl⟩
    | serve sent =>
      unfold next
      simp only
      by_cases hsize : request.payload.length ≤ max_payload
      · obtain ⟨n, hread⟩ := TcpServer.read_request_cut ⟨hvalid, hsize⟩ hfront hwhole
        simp only [serve_gone handler max_payload hread, ite_self]
        exact .refl w
      · obtain ⟨n, hread⟩ | ⟨n, hread⟩ := TcpServer.read_request_oversized hvalid
          (Nat.lt_of_not_le hsize) (header_of_front hfront)
        · simp only [serve_gone handler max_payload hread, ite_self]
          exact .refl w
        · split
          · exact serve_refused handler max_payload hread sent
          · exact .refl w

/-- What has been handled stays handled. -/
theorem next_grows (w : Wire σ) (d : Doing σ) :
    w.handled <+: (w.next handler max_payload d).handled := by
  cases d with
  | leave => exact List.prefix_rfl
  | meanwhile change => exact List.prefix_rfl
  | serve sent =>
    unfold next
    simp only
    split
    · unfold serve
      cases TcpServer.read_request max_payload w.up with
      | request request rest => exact List.prefix_append _ _
      | _ => exact List.prefix_rfl
    · exact List.prefix_rfl

/-! ### A call under way -/

/-- The request is on its way or has been handled once, and besides it only what was handled
    before. -/
inductive Settling (before : List (Frame × σ)) (request : Frame) (w : Wire σ) : Prop where
  | sent (up : w.up <+: encode_frame request) (handled : w.handled = before)
  | taken (state : σ) (up : w.up = []) (handled : w.handled = before ++ [(request, state)])

/-- Moreover nothing is on the way back but the answer to the request. -/
inductive Awaiting (handler : Handler σ) (before : List (Frame × σ)) (request : Frame)
    (w : Wire σ) : Prop where
  | sent (up : w.up <+: encode_frame request) (handled : w.handled = before) (down : w.down = [])
  | taken (state : σ) (up : w.up = []) (handled : w.handled = before ++ [(request, state)])
      (down : w.down <+: encode_frame (answer handler request state).1)

variable {before : List (Frame × σ)}

theorem Awaiting.settling (h : Awaiting handler before request w) : Settling before request w := by
  cases h with
  | sent up handled _ => exact .sent up handled
  | taken state up handled _ => exact .taken state up handled

theorem Settling.grows (h : Settling before request w) : before <+: w.handled := by
  cases h with
  | sent _ handled => exact handled ▸ List.prefix_rfl
  | taken state _ handled => exact handled ▸ List.prefix_append _ _

theorem Settling.next (hvalid : validate_frame request = .ok ()) (h : Settling before request w)
    (d : Doing σ) : Settling before request (w.next handler max_payload d) := by
  cases h with
  | sent up handled =>
    obtain hstill | hserves := next_front handler max_payload hvalid up d
    · exact .sent (hstill.up ▸ up) (hstill.handled.trans handled)
    · exact .taken _ hserves.up (handled ▸ hserves.handled)
  | taken state up handled =>
    have hstill := next_silent handler max_payload up d
    exact .taken state (hstill.up.trans up) (hstill.handled.trans handled)

theorem Awaiting.next (hvalid : validate_frame request = .ok ())
    (h : Awaiting handler before request w) (d : Doing σ) :
    Awaiting handler before request (w.next handler max_payload d) := by
  cases h with
  | sent up handled down =>
    obtain hstill | hserves := next_front handler max_payload hvalid up d
    · exact .sent (hstill.up ▸ up) (hstill.handled.trans handled) (hstill.down.trans down)
    · obtain ⟨sent, hsent, hdown⟩ := hserves.down
      rw [down, List.nil_append] at hdown
      exact .taken _ hserves.up (handled ▸ hserves.handled) (hdown ▸ hsent)
  | taken state up handled down =>
    have hstill := next_silent handler max_payload up d
    exact .taken state (hstill.up.trans up) (hstill.handled.trans handled) (hstill.down ▸ down)

end Wire

/-! ## One call -/

theorem valid_of_isOk (h : Status.isOk (validate_frame request) = true) :
    validate_frame request = .ok () := by
  cases hframe : validate_frame request with
  | ok _ => rfl
  | error e =>
    rw [hframe] at h
    cases h

namespace TcpClient

variable (handler max_payload)

theorem up_to_front (limit : Option Nat) (bytes : Text) : up_to limit bytes <+: bytes := by
  cases limit with
  | none => exact List.prefix_rfl
  | some n => exact List.take_prefix n bytes

/-- A frame that is not valid does not touch the line. -/
theorem call_refused (hvalid : ¬ Status.isOk (validate_frame request) = true)
    (crossing : Crossing σ) (w : Wire σ) : (call handler max_payload crossing request w).2 = w := by
  unfold call
  cases h : validate_frame request with
  | ok _ =>
    rw [h] at hvalid
    exact absurd rfl hvalid
  | error e => rfl

/-- A call on an empty line leaves it empty and returns the answer its request was given, or fails
    and leaves the request to settle. -/
theorem call_ends (hfit : ∀ request state,
    (answer handler request state).1.payload.length < u32_range)
    (hvalid : validate_frame request = .ok ()) {w : Wire σ} (hup : w.up = []) (hdown : w.down = [])
    (crossing : Crossing σ) {result : Result Frame} {w' : Wire σ}
    (hcall : call handler max_payload crossing request w = (result, w')) :
    (∃ state, result = .ok (answer handler request state).1 ∧ w'.up = [] ∧ w'.down = [] ∧
        w'.handled = w.handled ++ [(request, state)]) ∨
      ∃ e, result = .error e ∧ w'.Settling w.handled request := by
  unfold call at hcall
  simp only [hvalid] at hcall
  generalize hwire : crossing.meantime.foldl (Wire.next handler max_payload)
    { w with up := w.up ++ up_to crossing.sent (encode_frame request) } = w₁ at hcall
  have hawaiting : w₁.Awaiting handler w.handled request := by
    rw [← hwire]
    refine run_invariant (fun w d h => h.next handler max_payload hvalid d) _ (.sent ?_ rfl hdown)
    rw [hup, List.nil_append]
    exact up_to_front _ _
  cases hsent : crossing.sent with
  | some n =>
    rw [hsent] at hcall
    obtain ⟨rfl, rfl⟩ := Prod.mk.inj hcall
    exact .inr ⟨_, rfl, hawaiting.settling⟩
  | none =>
    simp only [hsent, Option.isSome_none, Bool.false_eq_true, if_false] at hcall
    have hthere : up_to crossing.heard w₁.down <+: w₁.down := up_to_front _ _
    cases hawaiting with
    | sent up handled down =>
      -- Nothing has come back, so there is nothing to read.
      rw [down] at hthere hcall
      rw [List.prefix_nil.mp hthere] at hcall
      obtain ⟨rfl, rfl⟩ := Prod.mk.inj hcall
      exact .inr ⟨_, rfl, .sent up handled⟩
    | taken state up handled down =>
      obtain hwaits | ⟨e, rest, hread⟩ | ⟨hread, hwhole⟩ :=
        receive_front request (hfit request state) (hthere.trans down)
      · rw [hwaits] at hcall
        obtain ⟨rfl, rfl⟩ := Prod.mk.inj hcall
        exact .inr ⟨_, rfl, .taken state up handled⟩
      · rw [hread] at hcall
        obtain ⟨rfl, rfl⟩ := Prod.mk.inj hcall
        exact .inr ⟨_, rfl, .taken state up handled⟩
      · -- The whole answer has been read, and there never was anything else.
        rw [hread] at hcall
        obtain ⟨rfl, rfl⟩ := Prod.mk.inj hcall
        have hall : w₁.down.drop (up_to crossing.heard w₁.down).length = [] := by
          rw [hwhole]
          exact List.drop_eq_nil_of_le down.length_le
        refine .inl ⟨state, rfl, up, ?_, handled⟩
        show [] ++ w₁.down.drop _ = []
        rw [List.nil_append, hall]

theorem call_grows (crossing : Crossing σ) (request : Frame) (w : Wire σ) :
    w.handled <+: (call handler max_payload crossing request w).2.handled := by
  unfold call
  cases validate_frame request with
  | error e => exact List.prefix_rfl
  | ok _ =>
    simp only
    generalize hwire : crossing.meantime.foldl (Wire.next handler max_payload)
      { w with up := w.up ++ up_to crossing.sent (encode_frame request) } = w₁
    have hgrows : w.handled <+: w₁.handled := by
      rw [← hwire]
      exact run_invariant (I := fun w' : Wire σ => w.handled <+: w'.handled)
        (fun w' d h => h.trans (w'.next_grows handler max_payload d)) _ List.prefix_rfl
    cases crossing.sent with
    | some n => exact hgrows
    | none =>
      simp only [Option.isSome_none, Bool.false_eq_true, if_false]
      cases receive request (up_to crossing.heard w₁.down) with
      | waits => exact hgrows
      | read result rest => exact hgrows

/-! ## A client and its calls -/

/-- A request, and how far its bytes and those of the response get. -/
structure Call (σ : Type) where
  request : Frame
  crossing : Crossing σ := {}

/-- What happens on a line, one after the other: a call, or something at the other end between two
    calls. -/
inductive Happening (σ : Type) where
  | call (c : Call σ)
  | doing (d : Doing σ)

/-- A client with its line, and what its calls have returned. -/
structure Conversation (σ : Type) where
  wire : Wire σ
  told : List (Frame × Result Frame) := []

namespace Conversation

def live (t : Conversation σ) : Happening σ → Conversation σ
  | .call c =>
      let called := call handler max_payload c.crossing c.request t.wire
      { wire := called.2, told := t.told ++ [(c.request, called.1)] }
  | .doing d => { t with wire := t.wire.next handler max_payload d }

/-- The calls that have touched the line. -/
def sent (t : Conversation σ) : List (Frame × Result Frame) :=
  t.told.filter fun c => Status.isOk (validate_frame c.1)

/-- What a call returns whose request has been handled. -/
def relayed (h : Frame × σ) : Frame × Result Frame := (h.1, .ok (answer handler h.1 h.2).1)

variable {t : Conversation σ}

theorem live_call {c : Call σ} {result : Result Frame} {w : Wire σ}
    (h : TcpClient.call handler max_payload c.crossing c.request t.wire = (result, w)) :
    t.live handler max_payload (.call c) =
      { wire := w, told := t.told ++ [(c.request, result)] } := by
  unfold live
  simp only [h]

theorem sent_call (request : Frame) (result : Result Frame) (w : Wire σ) :
    (Conversation.sent { wire := w, told := t.told ++ [(request, result)] }) =
      t.sent ++ if Status.isOk (validate_frame request) then [(request, result)] else [] := by
  unfold sent
  rw [List.filter_append]
  congr 1
  cases h : Status.isOk (validate_frame request) <;> simp [h]

/-! ### Up to the first failure -/

/-- How a conversation stands: no call has failed and the line is empty; or one has failed and its
    request may still be on the line; or there have been others since. -/
inductive Stands (t : Conversation σ) : Prop where
  | well (up : t.wire.up = []) (down : t.wire.down = [])
      (sent : t.sent = t.wire.handled.map (relayed handler))
  | doubt (before : List (Frame × σ)) (request : Frame) (e : Error)
      (valid : validate_frame request = .ok ())
      (sent : t.sent = before.map (relayed handler) ++ [(request, .error e)])
      (settling : t.wire.Settling before request)
  | lost (before : List (Frame × σ)) (request : Frame) (e : Error)
      (rest : List (Frame × Result Frame))
      (sent : t.sent = before.map (relayed handler) ++ (request, .error e) :: rest)
      (others : rest ≠ []) (grows : before <+: t.wire.handled)

theorem Stands.doing (h : t.Stands handler) (d : Doing σ) :
    (t.live handler max_payload (.doing d)).Stands handler := by
  cases h with
  | well up down sent =>
    have hstill := t.wire.next_silent handler max_payload up d
    exact .well (hstill.up.trans up) (hstill.down.trans down) (hstill.handled.symm ▸ sent)
  | doubt before request e valid sent settling =>
    exact .doubt before request e valid sent (settling.next handler max_payload valid d)
  | lost before request e rest sent others grows =>
    exact .lost before request e rest sent others
      (grows.trans (t.wire.next_grows handler max_payload d))

theorem Stands.call
    (hfit : ∀ request state, (answer handler request state).1.payload.length < u32_range)
    (h : t.Stands handler) (c : Call σ) :
    (t.live handler max_payload (.call c)).Stands handler := by
  obtain ⟨result, w, hcall⟩ : ∃ result w,
      TcpClient.call handler max_payload c.crossing c.request t.wire = (result, w) := ⟨_, _, rfl⟩
  have hgrows := TcpClient.call_grows handler max_payload c.crossing c.request t.wire
  have hsent := sent_call (t := t) c.request result w
  rw [hcall] at hgrows
  rw [live_call handler max_payload hcall]
  -- Only a frame that is valid is sent; what it meets depends on how the line stands.
  by_cases hvalid : Status.isOk (validate_frame c.request) = true
  · rw [if_pos hvalid] at hsent
    have hok := valid_of_isOk hvalid
    cases h with
    | well up down sent =>
      rw [sent] at hsent
      obtain ⟨state, rfl, hup, hdown, hhandled⟩ | ⟨e, rfl, hsettling⟩ :=
        call_ends handler max_payload hfit hok up down c.crossing hcall
      · refine .well hup hdown ?_
        rw [hsent, hhandled, List.map_append]
        rfl
      · exact .doubt _ c.request e hok hsent hsettling
    -- Another call on a line in doubt: what it reads may be the answer to the one before.
    | doubt before request e valid sent settling =>
      rw [sent, List.append_assoc] at hsent
      exact .lost before request e [(c.request, result)] hsent (List.cons_ne_nil _ _)
        (settling.grows.trans hgrows)
    | lost before request e rest sent others grows =>
      rw [sent, List.append_assoc] at hsent
      exact .lost before request e (rest ++ [(c.request, result)]) hsent
        (List.append_ne_nil_of_left_ne_nil others _) (grows.trans hgrows)
  · -- The frame is refused, and neither the line nor the calls on it have changed.
    obtain rfl : w = t.wire := by
      have hwire := call_refused handler max_payload hvalid c.crossing t.wire
      rwa [hcall] at hwire
    rw [if_neg hvalid, List.append_nil] at hsent
    cases h with
    | well up down sent => exact .well up down (hsent.trans sent)
    | doubt before request e valid sent settling =>
      exact .doubt before request e valid (hsent.trans sent) settling
    | lost before request e rest sent others grows =>
      exact .lost before request e rest (hsent.trans sent) others grows

theorem Stands.live
    (hfit : ∀ request state, (answer handler request state).1.payload.length < u32_range)
    (h : t.Stands handler) (x : Happening σ) : (t.live handler max_payload x).Stands handler := by
  cases x with
  | call c => exact h.call handler max_payload hfit c
  | doing d => exact h.doing handler max_payload d

/-! ### In order -/

end Conversation

end TcpClient

namespace Wire

/-- The line holds the last of the requests asked, each as a whole; those before have been
    handled. -/
def Queued (asked : List Frame) (w : Wire σ) : Prop :=
  ∃ todo, w.up = todo.flatMap encode_frame ∧ w.handled.map Prod.fst ++ todo = asked ∧
    ∀ f ∈ todo, validate_frame f = .ok ()

variable (handler max_payload) {asked : List Frame} {w : Wire σ}

theorem Queued.next (h : w.Queued asked) (d : Doing σ) :
    (w.next handler max_payload d).Queued asked := by
  obtain ⟨todo, hup, hasked, hvalid⟩ := h
  cases todo with
  | nil =>
    have hstill := next_silent handler max_payload hup d
    exact ⟨[], hstill.up.trans hup, by rw [hstill.handled, hasked], hvalid⟩
  | cons f todo =>
    have hfirst := hvalid f List.mem_cons_self
    obtain hstill | hserves := next_request handler max_payload hfirst hup d
    · exact ⟨f :: todo, hstill.up.trans hup, by rw [hstill.handled, hasked], hvalid⟩
    · refine ⟨todo, hserves.up, ?_, fun g hg => hvalid g (List.mem_cons_of_mem _ hg)⟩
      rw [hserves.handled, List.map_append, List.append_assoc]
      exact hasked

end Wire

namespace TcpClient

variable (handler max_payload)

/-- A call whose send is whole puts its request behind the others. -/
theorem call_queued (hvalid : validate_frame request = .ok ()) {crossing : Crossing σ}
    (hsent : crossing.sent = none) {asked : List Frame} {w : Wire σ} (h : w.Queued asked) :
    (call handler max_payload crossing request w).2.Queued (asked ++ [request]) := by
  unfold call
  simp only [hvalid, hsent, Option.isSome_none, Bool.false_eq_true, if_false]
  generalize hwire : crossing.meantime.foldl (Wire.next handler max_payload)
    { w with up := w.up ++ up_to none (encode_frame request) } = w₁
  have hqueued : w₁.Queued (asked ++ [request]) := by
    rw [← hwire]
    refine run_invariant (fun w d h => h.next handler max_payload d) _ ?_
    obtain ⟨todo, hup, hasked, hall⟩ := h
    refine ⟨todo ++ [request], ?_, ?_, ?_⟩
    · show w.up ++ encode_frame request = _
      rw [hup, List.flatMap_append, List.flatMap_singleton]
    · show w.handled.map Prod.fst ++ _ = _
      rw [← List.append_assoc, hasked]
    · intro f hf
      obtain hf | hf := List.mem_append.mp hf
      · exact hall f hf
      · exact List.mem_singleton.mp hf ▸ hvalid
  cases receive request (up_to crossing.heard w₁.down) with
  | waits => exact hqueued
  | read result rest => exact hqueued

/-- No send of the client breaks off. -/
def Happening.sends : Happening σ → Prop
  | .call c => c.crossing.sent = none
  | .doing _ => True

namespace Conversation

theorem queued_live (t : Conversation σ) (x : Happening σ) (hsends : x.sends)
    (h : t.wire.Queued (t.sent.map Prod.fst)) :
    (t.live handler max_payload x).wire.Queued
      ((t.live handler max_payload x).sent.map Prod.fst) := by
  cases x with
  | doing d => exact h.next handler max_payload d
  | call c =>
    obtain ⟨result, w, hcall⟩ : ∃ result w,
        TcpClient.call handler max_payload c.crossing c.request t.wire = (result, w) :=
      ⟨_, _, rfl⟩
    rw [live_call handler max_payload hcall, sent_call]
    by_cases hvalid : Status.isOk (validate_frame c.request) = true
    · have hqueued := call_queued handler max_payload (valid_of_isOk hvalid) hsends h
      rw [hcall] at hqueued
      rw [if_pos hvalid, List.map_append]
      exact hqueued
    · obtain rfl : w = t.wire := by
        have hwire := call_refused handler max_payload hvalid c.crossing t.wire
        rwa [hcall] at hwire
      rw [if_neg hvalid, List.append_nil]
      exact h

/-! ### When nothing breaks -/

end Conversation

end TcpClient

/-- The server stays, and what it sends gets across. -/
def Doing.holds : Doing σ → Prop
  | .serve sent => sent = none
  | .leave => False
  | .meanwhile _ => True

/-- Nothing breaks off, and the server gets to the request. -/
structure Crossing.Whole (c : Crossing σ) : Prop where
  sent : c.sent = none
  heard : c.heard = none
  served : .serve none ∈ c.meantime
  holds : ∀ d ∈ c.meantime, d.holds

theorem Crossing.Whole.served_at_once :
    Crossing.Whole { meantime := [(.serve none : Doing σ)] } := by
  refine ⟨rfl, rfl, List.mem_singleton.mpr rfl, ?_⟩
  intro d hd
  rw [List.mem_singleton.mp hd]
  rfl

namespace Wire

variable (handler max_payload) {w : Wire σ} {before : List (Frame × σ)}

/-- The request waits for the server. -/
structure Asked (before : List (Frame × σ)) (request : Frame) (w : Wire σ) : Prop where
  serving : w.serving = true
  up : w.up = encode_frame request
  down : w.down = []
  handled : w.handled = before

/-- The whole answer waits for the client. -/
structure Answered (handler : Handler σ) (before : List (Frame × σ)) (request : Frame)
    (w : Wire σ) : Prop where
  serving : w.serving = true
  up : w.up = []
  answer : ∃ state, w.handled = before ++ [(request, state)] ∧
    w.down = encode_frame (answer handler request state).1

theorem Asked.serve (hacceptable : Acceptable max_payload request)
    (hstays : request.type ≠ .Goodbye)
    (h : w.Asked before request) :
    (w.next handler max_payload (.serve none)).Answered handler before request := by
  have hread : TcpServer.read_request max_payload w.up = .request request [] := by
    rw [h.up, ← List.append_nil (encode_frame request)]
    exact TcpServer.read_request_frame hacceptable []
  unfold Wire.next
  simp only [h.serving, if_true]
  unfold Wire.serve
  rw [hread]
  unfold TcpServer.round
  simp only [hread]
  refine ⟨decide_eq_true hstays, rfl, w.server.state, by rw [← h.handled], ?_⟩
  show w.down ++ encode_frame _ = _
  rw [h.down, List.nil_append]

theorem Asked.meanwhile (h : w.Asked before request) (change : σ → σ) :
    (w.next handler max_payload (.meanwhile change)).Asked before request :=
  ⟨h.serving, h.up, h.down, h.handled⟩

/-- On an empty line the server stays where it is. -/
theorem serving_silent (hup : w.up = []) (hserving : w.serving = true) {d : Doing σ}
    (hd : d.holds) : (w.next handler max_payload d).serving = true := by
  cases d with
  | serve sent =>
    have hread : TcpServer.read_request max_payload w.up = .gone 0 := by
      rw [hup]
      rfl
    unfold Wire.next
    simp only [serve_gone handler max_payload hread, ite_self]
    exact hserving
  | leave => cases hd
  | meanwhile change => exact hserving

theorem Answered.next (h : w.Answered handler before request) {d : Doing σ} (hd : d.holds) :
    (w.next handler max_payload d).Answered handler before request := by
  have hstill := w.next_silent handler max_payload h.up d
  refine ⟨serving_silent handler max_payload h.up h.serving hd, hstill.up.trans h.up, ?_⟩
  rw [hstill.handled, hstill.down]
  exact h.answer

theorem Answered.run (h : w.Answered handler before request) {ds : List (Doing σ)}
    (hds : ∀ d ∈ ds, d.holds) :
    (ds.foldl (Wire.next handler max_payload) w).Answered handler before request := by
  induction ds generalizing w with
  | nil => exact h
  | cons d ds ih =>
    exact ih (h.next handler max_payload (hds d List.mem_cons_self))
      (fun d' hd' => hds d' (List.mem_cons_of_mem _ hd'))

/-- When the server gets to the request and nothing breaks, the whole answer is there. -/
theorem Asked.run (hacceptable : Acceptable max_payload request)
    (hstays : request.type ≠ .Goodbye) (h : w.Asked before request) {ds : List (Doing σ)}
    (hserved : .serve none ∈ ds) (hds : ∀ d ∈ ds, d.holds) :
    (ds.foldl (Wire.next handler max_payload) w).Answered handler before request := by
  induction ds generalizing w with
  | nil => cases hserved
  | cons d ds ih =>
    have hrest : ∀ d' ∈ ds, d'.holds := fun d' hd' => hds d' (List.mem_cons_of_mem _ hd')
    have hd := hds d List.mem_cons_self
    cases d with
    | serve sent =>
      obtain rfl : sent = none := hd
      exact (h.serve handler max_payload hacceptable hstays).run handler max_payload hrest
    | leave => cases hd
    | meanwhile change =>
      -- The request has still to be served.
      have hlater : .serve none ∈ ds := by simpa using hserved
      exact ih (h.meanwhile handler max_payload change) hlater hrest

end Wire

namespace TcpClient

variable (handler max_payload)

/-- A call that is served while nothing breaks returns the answer, and leaves the line empty. -/
theorem call_whole (hacceptable : Acceptable max_payload request) (hstays : request.type ≠ .Goodbye)
    (hanswers : ∀ state, validate_frame (answer handler request state).1 = .ok () ∧
      (answer handler request state).1.request_id = request.request_id)
    {crossing : Crossing σ} (hwhole : crossing.Whole) {w : Wire σ} (hserving : w.serving = true)
    (hup : w.up = []) (hdown : w.down = []) {result : Result Frame} {w' : Wire σ}
    (hcall : call handler max_payload crossing request w = (result, w')) :
    w'.serving = true ∧ w'.up = [] ∧ w'.down = [] ∧
      ∃ state, result = .ok (answer handler request state).1 ∧
        w'.handled = w.handled ++ [(request, state)] := by
  unfold call at hcall
  simp only [hacceptable.valid, hwhole.sent, hwhole.heard, Option.isSome_none, Bool.false_eq_true,
    if_false, up_to] at hcall
  generalize hwire : crossing.meantime.foldl (Wire.next handler max_payload)
    { w with up := w.up ++ encode_frame request } = w₁ at hcall
  have hanswered : w₁.Answered handler w.handled request := by
    have hasked :
        ({ w with up := w.up ++ encode_frame request } : Wire σ).Asked w.handled request :=
      ⟨hserving, by rw [hup, List.nil_append], hdown, rfl⟩
    rw [← hwire]
    exact hasked.run handler max_payload hacceptable hstays hwhole.served hwhole.holds
  obtain ⟨state, hhandled, hanswer⟩ := hanswered.answer
  obtain ⟨hvalid, hid⟩ := hanswers state
  rw [hanswer, receive_whole hvalid hid] at hcall
  obtain ⟨rfl, rfl⟩ := Prod.mk.inj hcall
  exact ⟨hanswered.serving, hanswered.up, List.drop_length, state, rfl, hhandled⟩

/-- Nothing breaks: the server takes the request, and stays. -/
def Happening.holds (max_payload : Nat) : Happening σ → Prop
  | .call c => Acceptable max_payload c.request ∧ c.request.type ≠ .Goodbye ∧ c.crossing.Whole
  | .doing d => d.holds

namespace Conversation

variable {t : Conversation σ}

/-- Every call has returned, and the line is empty. -/
structure Settled (t : Conversation σ) : Prop where
  serving : t.wire.serving = true
  up : t.wire.up = []
  down : t.wire.down = []
  told : t.told = t.wire.handled.map (relayed handler)

theorem Settled.live
    (hanswers : ∀ request state, validate_frame (answer handler request state).1 = .ok () ∧
      (answer handler request state).1.request_id = request.request_id)
    (x : Happening σ) (hx : x.holds max_payload) (h : t.Settled handler) :
    (t.live handler max_payload x).Settled handler := by
  cases x with
  | doing d =>
    have hstill := t.wire.next_silent handler max_payload h.up d
    refine ⟨Wire.serving_silent handler max_payload h.up h.serving hx, hstill.up.trans h.up,
      hstill.down.trans h.down, ?_⟩
    show t.told = (t.wire.next handler max_payload d).handled.map (relayed handler)
    rw [hstill.handled]
    exact h.told
  | call c =>
    obtain ⟨hacceptable, hstays, hwhole⟩ := hx
    obtain ⟨result, w, hcall⟩ : ∃ result w,
        TcpClient.call handler max_payload c.crossing c.request t.wire = (result, w) :=
      ⟨_, _, rfl⟩
    obtain ⟨hserving, hup, hdown, state, rfl, hhandled⟩ := call_whole handler max_payload
      hacceptable hstays (hanswers c.request) hwhole h.serving h.up h.down hcall
    rw [live_call handler max_payload hcall]
    refine ⟨hserving, hup, hdown, ?_⟩
    show t.told ++ _ = _
    rw [h.told, hhandled, List.map_append]
    rfl

/-! ### The account -/

/-- As far as calls have returned a response, they are the first requests that were handled, each
    with the answer it was given there. The first call that failed has been handled once or not at
    all, as long as the client makes no other on this line. -/
def Accounted (t : Conversation σ) : Prop :=
  ∃ before : List (Frame × σ), before <+: t.wire.handled ∧
    ((t.sent = before.map (relayed handler) ∧ t.wire.handled = before) ∨
      ∃ request e rest, t.sent = before.map (relayed handler) ++ (request, .error e) :: rest ∧
        (rest = [] → t.wire.handled = before ∨
          ∃ state, t.wire.handled = before ++ [(request, state)]))

theorem Stands.accounted (h : t.Stands handler) : t.Accounted handler := by
  cases h with
  | well up down sent => exact ⟨t.wire.handled, List.prefix_rfl, .inl ⟨sent, rfl⟩⟩
  | doubt before request e valid sent settling =>
    refine ⟨before, settling.grows, .inr ⟨request, e, [], sent, fun _ => ?_⟩⟩
    cases settling with
    | sent up handled => exact .inl handled
    | taken state up handled => exact .inr ⟨state, handled⟩
  | lost before request e rest sent others grows =>
    exact ⟨before, grows, .inr ⟨request, e, rest, sent, fun hnone => absurd hnone others⟩⟩

/-! ### Runs -/

/-- A client that has not yet called. -/
def fresh (server : TcpServer σ) : Conversation σ := { wire := { server } }

def run (t : Conversation σ) (happenings : List (Happening σ)) : Conversation σ :=
  happenings.foldl (live handler max_payload) t

variable {happenings : List (Happening σ)}

theorem accounted_run
    (hfit : ∀ request state, (answer handler request state).1.payload.length < u32_range)
    (happenings : List (Happening σ)) (server : TcpServer σ) :
    ((fresh server).run handler max_payload happenings).Accounted handler := by
  have hstart : (fresh server).Stands handler := .well rfl rfl rfl
  exact (run_invariant (fun t x h => h.live handler max_payload hfit x) happenings
    hstart).accounted

theorem in_order_run (hsends : ∀ x ∈ happenings, x.sends) (server : TcpServer σ) :
    ((fresh server).run handler max_payload happenings).wire.handled.map Prod.fst <+:
      ((fresh server).run handler max_payload happenings).sent.map Prod.fst := by
  have hstart : (fresh server).wire.Queued ((fresh server).sent.map Prod.fst) :=
    ⟨[], rfl, rfl, fun _ hf => absurd hf List.not_mem_nil⟩
  obtain ⟨todo, -, hasked, -⟩ := (Along.of_mem hsends (fresh server)).invariant
    (I := fun t : Conversation σ => t.wire.Queued (t.sent.map Prod.fst))
    (queued_live handler max_payload) hstart
  exact ⟨todo, hasked⟩

theorem settled_run
    (hanswers : ∀ request state, validate_frame (answer handler request state).1 = .ok () ∧
      (answer handler request state).1.request_id = request.request_id)
    (hholds : ∀ x ∈ happenings, x.holds max_payload) (server : TcpServer σ) :
    ((fresh server).run handler max_payload happenings).Settled handler := by
  have hstart : (fresh server).Settled handler := ⟨rfl, rfl, rfl, rfl⟩
  exact (Along.of_mem hholds (fresh server)).invariant
    (fun t x hx h => h.live handler max_payload hanswers x hx) hstart

end Conversation

/-- A client makes its calls on one line, which may break off anywhere, to a server that gets to
    them when it may. Up to the first call that fails, every call is one request handled, in order,
    and returns what it was answered; the one that fails is handled at most once. If the client
    goes on, its requests are still handled in order and once, as long as its sends are whole. If
    nothing breaks, every call returns its answer. -/
theorem calls_at_most_once
    (hfit : ∀ request state, (answer handler request state).1.payload.length < u32_range)
    (happenings : List (Happening σ)) (server : TcpServer σ) :
    let t := (Conversation.fresh server).run handler max_payload happenings
    t.Accounted handler ∧
      ((∀ x ∈ happenings, x.sends) → t.wire.handled.map Prod.fst <+: t.sent.map Prod.fst) ∧
      ((∀ x ∈ happenings, x.holds max_payload) →
        (∀ request state, validate_frame (answer handler request state).1 = .ok () ∧
          (answer handler request state).1.request_id = request.request_id) →
        t.told = t.wire.handled.map (Conversation.relayed handler)) := by
  intro t
  refine ⟨Conversation.accounted_run handler max_payload hfit happenings server, ?_, ?_⟩
  · exact fun hsends => Conversation.in_order_run handler max_payload hsends server
  · exact fun hholds hanswers =>
      (Conversation.settled_run handler max_payload hanswers hholds server).told

/-- Two calls to a server that counts them; between them the count is moved on by five. -/
theorem calls_counted :
    let handler : Handler Nat := fun _ prepared n => ((ok_status, prepared), n + 1)
    let crossing : Crossing Nat := { meantime := [.serve none] }
    let happenings : List (Happening Nat) :=
      [.call { request := { type := .Request, request_id := 1 }, crossing },
        .doing (.meanwhile (· + 5)),
        .call { request := { type := .Heartbeat, request_id := 2 }, crossing }]
    let t := (Conversation.fresh { state := 0 }).run handler 16 happenings
    t.told = t.wire.handled.map (Conversation.relayed handler) := by
  intro handler crossing happenings
  have hfit : ∀ request state, (answer handler request state).1.payload.length < u32_range := by
    intro request state
    show 0 < u32_range
    decide
  obtain ⟨-, -, hwhole⟩ := calls_at_most_once handler 16 hfit happenings { state := 0 }
  have hcrossing : crossing.Whole := .served_at_once
  refine hwhole ?_ (fun request state => ⟨rfl, rfl⟩)
  intro x hx
  obtain rfl | rfl | rfl : x = _ ∨ x = _ ∨ x = _ := by simpa [happenings] using hx
  · exact ⟨⟨rfl, Nat.zero_le _⟩, by decide, hcrossing⟩
  · trivial
  · exact ⟨⟨rfl, Nat.zero_le _⟩, by decide, hcrossing⟩

end TcpClient

end Transport

end MaintenanceFabric
