import MaintenanceFabric.Drain.Exchange
import MaintenanceFabric.Guarantees.Sessions
import MaintenanceFabric.Transport.Api

/-! # Remote calls are calls

    Whoever commands a service from afar is told what the service itself would
    have said, up to a prefix before the detail of an error, until the line
    fails.  The command for which it fails has been carried out or will be, or
    not, but never twice.  The remote interface goes on with the same line, and
    what it is told from then on need not be about its commands; they are
    still carried out in order.
-/

namespace MaintenanceFabric

open Lib Transport TcpClient

namespace RemoteApi

variable {σ : Type} (service : Service σ) (max_payload : Nat)

/-! ## What is expected -/

/-- An outcome of the service, as the caller is told of it. -/
def relayed (what : Text) : Result Text → Result Text
  | .ok body => .ok body
  | .error e =>
      .error (make_error e.code (what ++ text ": " ++ clip limits.kMaxDetailLength e.detail))

/-- The operation has a number, and the body fits into a frame. -/
structure Command.Fits (c : Command σ) : Prop where
  op : c.op < 65536
  body : c.body.length ≤ limits.kMaxFrameBytes / 2 + 6

/-- The service has got the command. -/
def Gets (c : Command σ) (handled : Transport.Frame × σ) : Prop :=
  decode_envelope handled.1.payload = .ok c.envelope

/-- The service has got the command, and its caller has been told what the service made of it in
    the state it was then in, if that fits into a reply. -/
def CarriedOut (told : Command σ × Result Text) (handled : Transport.Frame × σ) : Prop :=
  Gets told.1 handled ∧
    (RemoteDrainPort.Replies (service told.1.envelope handled.2).1 →
      told.2 = relayed told.1.what (service told.1.envelope handled.2).1)

/-! ## One command -/

theorem half_frame {n : Nat} (h : n ≤ limits.kMaxFrameBytes / 2 + 6) :
    n ≤ limits.kMaxFrameBytes := by
  simp only [limits.kMaxFrameBytes] at h ⊢
  omega

/-- The service gets the command as it was given. -/
theorem answer_command {c : Command σ} (h : c.Fits) (request : Transport.Frame)
    (hpayload : request.payload = encode_envelope c.envelope) (state : σ) :
    answer service.handler request state =
      ({ type := .Response, request_id := request.request_id
         payload := encode_envelope (DrainService.reply (service c.envelope state).1) },
        (service c.envelope state).2) := by
  have hread : decode_envelope request.payload = .ok c.envelope := by
    rw [hpayload, envelope_understood h.op (half_frame h.body)]
    rfl
  unfold answer Service.handler
  rw [hread]
  rfl

theorem reply_fits {outcome : Result Text} (h : RemoteDrainPort.Replies outcome) :
    (DrainService.reply outcome).op < 65536 ∧
      (DrainService.reply outcome).body.length ≤ limits.kMaxFrameBytes / 2 + 6 := by
  cases outcome with
  | ok body => exact ⟨(by decide : kStatusOk < 65536), h⟩
  | error e => exact ⟨e.code.code_lt, Nat.zero_le _⟩

/-- The reply is read for what the service has said. -/
theorem read_reply (what : Text) {outcome : Result Text} (h : RemoteDrainPort.Replies outcome)
    (request_id : UInt64) :
    read_response what (.ok { type := .Response, request_id
                              payload := encode_envelope (DrainService.reply outcome) }) =
      relayed what outcome := by
  obtain ⟨hop, hbody⟩ := reply_fits h
  unfold read_response
  simp only [envelope_understood hop (half_frame hbody), reduceCtorEq, if_false]
  unfold unwrap
  cases outcome with
  | ok body => rfl
  | error e =>
    have hcode : ¬ e.code.code = kStatusOk := fun hok => h (ErrorCode.code_eq_ok hok)
    simp only [DrainService.reply, hcode, ne_eq, not_false_eq_true, if_true, relayed,
      ErrorCode.ofCode_code]

/-! ## Visits -/

/-- What happens while a client is connected, one after the other. -/
inductive Happening (σ : Type) where
  | command (c : Command σ)
  | doing (d : Doing σ)

/-- The interface, and what its commands have come to. -/
structure Visit (σ : Type) where
  api : RemoteApi σ
  told : List (Command σ × Result Text) := []

namespace Visit

/-- A client that has not yet given a command. -/
def fresh (server : TcpServer σ) : Visit σ := { api := { wire := { server } } }

def live (v : Visit σ) : Happening σ → Visit σ
  | .command c =>
      let called := v.api.call service max_payload c
      { api := called.2, told := v.told ++ [(c, called.1)] }
  | .doing d =>
      { v with api := { v.api with wire := v.api.wire.next service.handler max_payload d } }

def run (v : Visit σ) (happenings : List (Happening σ)) : Visit σ :=
  happenings.foldl (live service max_payload) v

end Visit

/-! ## On the line -/

/-- The frame a command is sent in. -/
def Command.frame (c : Command σ) (client : TcpClient) : Transport.Frame :=
  client.request_frame .Request c.op (encode_envelope c.envelope)

/-- What happens on the line while the commands are given. -/
def spoken : TcpClient → List (Happening σ) → List (TcpClient.Happening σ)
  | _, [] => []
  | client, .command c :: rest =>
      .call { request := c.frame client, crossing := c.crossing } ::
        spoken { next_id := client.next_id + 1 } rest
  | client, .doing d :: rest => .doing d :: spoken client rest

/-- What the caller of a command is told is what the interface reads from its call. -/
structure Reads (told : Command σ × Result Text)
    (call : Transport.Frame × Result Transport.Frame) : Prop where
  fits : told.1.Fits
  sent : ∃ client, call.1 = told.1.frame client
  read : told.2 = read_response told.1.what call.2

/-- The conversation behind a visit. -/
structure Speaks (v : Visit σ) (t : Conversation σ) : Prop where
  wire : t.wire = v.api.wire
  told : List.Forall₂ Reads v.told t.told

theorem Speaks.run {v : Visit σ} {t : Conversation σ} (h : Speaks v t)
    {happenings : List (Happening σ)} (hfits : ∀ c, .command c ∈ happenings → c.Fits) :
    Speaks (v.run service max_payload happenings)
      (t.run service.handler max_payload (spoken v.api.client happenings)) := by
  induction happenings generalizing v t with
  | nil => exact h
  | cons x rest ih =>
    have hrest : ∀ c, .command c ∈ rest → c.Fits := fun c hc => hfits c (List.mem_cons_of_mem _ hc)
    cases x with
    | doing d =>
      refine ih (v := v.live service max_payload (.doing d)) ⟨?_, h.told⟩ hrest
      show t.wire.next service.handler max_payload d = v.api.wire.next service.handler max_payload d
      rw [h.wire]
    | command c =>
      refine ih (v := v.live service max_payload (.command c)) ⟨?_, ?_⟩ hrest
      · show (TcpClient.call service.handler max_payload c.crossing _ t.wire).2 =
          (TcpClient.call service.handler max_payload c.crossing _ v.api.wire).2
        rw [h.wire]
        rfl
      · refine List.rel_append h.told (.cons ⟨hfits c List.mem_cons_self, ⟨_, rfl⟩, ?_⟩ .nil)
        show read_response c.what (TcpClient.call service.handler max_payload c.crossing _
          v.api.wire).1 = _
        rw [← h.wire]
        rfl

/-- Every command is sent in a valid frame. -/
theorem reads_valid {told : List (Command σ × Result Text)}
    {calls : List (Transport.Frame × Result Transport.Frame)} (h : List.Forall₂ Reads told calls) :
    ∀ call ∈ calls, Status.isOk (validate_frame call.1) = true := by
  induction h with
  | nil => exact fun _ hcall => absurd hcall List.not_mem_nil
  | @cons one call told calls first _ ih =>
    intro other hother
    obtain rfl | hother := List.mem_cons.mp hother
    · obtain ⟨client, hsent⟩ := first.sent
      have hvalid : validate_frame (one.1.frame client) = .ok () :=
        RemoteDrainPort.validate_envelope_frame .Request rfl _ _ first.fits.body
      rw [hsent, hvalid]
      rfl
    · exact ih other hother

theorem Speaks.sent {v : Visit σ} {t : Conversation σ} (h : Speaks v t) : t.sent = t.told :=
  List.filter_eq_self.mpr (reads_valid h.told)

/-- The service gets a command in the frame it is sent in. -/
theorem gets_frame {c : Command σ} (h : c.Fits) (client : TcpClient) (state : σ) :
    Gets c (c.frame client, state) := by
  show decode_envelope (encode_envelope c.envelope) = .ok c.envelope
  rw [envelope_understood h.op (half_frame h.body)]
  rfl

/-- A call that returned the answer of the handler was a command carried out. -/
theorem carried_out {told : Command σ × Result Text} {handled : Transport.Frame × σ}
    (h : Reads told (Conversation.relayed service.handler handled)) :
    CarriedOut service told handled := by
  obtain ⟨request, state⟩ := handled
  obtain ⟨hfits, ⟨client, hsent⟩, hread⟩ := h
  obtain rfl : request = told.1.frame client := hsent
  refine ⟨gets_frame hfits client state, fun hreplies => ?_⟩
  rw [hread, ← read_reply told.1.what hreplies client.next_id]
  show read_response told.1.what (.ok (answer service.handler _ state).1) = _
  rw [answer_command service hfits _ rfl state]
  rfl

/-- As many calls as returned the answers of these requests were commands carried out. -/
theorem carried_out_all {told : List (Command σ × Result Text)}
    {before : List (Transport.Frame × σ)}
    (h : List.Forall₂ Reads told (before.map (Conversation.relayed service.handler))) :
    List.Forall₂ (CarriedOut service) told before :=
  (List.forall₂_map_right_iff.mp h).imp fun _ _ hread => carried_out service hread

/-! ## The account -/

/-- Up to the first command for which the line fails, every command has been carried out, in order,
    and its caller knows; that one has been carried out once or not at all, as long as it is the
    last. -/
def Visit.Accounted (v : Visit σ) : Prop :=
  ∃ (first rest : List (Command σ × Result Text)) (before : List (Transport.Frame × σ)),
    v.told = first ++ rest ∧ before <+: v.api.wire.handled ∧
    List.Forall₂ (CarriedOut service) first before ∧
    ((rest = [] ∧ v.api.wire.handled = before) ∨
      ∃ c e others, rest = (c, .error e) :: others ∧
        (others = [] → v.api.wire.handled = before ∨
          ∃ handled, v.api.wire.handled = before ++ [handled] ∧ Gets c handled))

theorem Speaks.accounted {v : Visit σ} {t : Conversation σ} (h : Speaks v t)
    (ht : t.Accounted service.handler) : v.Accounted service := by
  obtain ⟨before, hbefore, haccount⟩ := ht
  rw [h.sent, h.wire] at haccount
  rw [h.wire] at hbefore
  have htold := h.told
  obtain ⟨hall, hhandled⟩ | ⟨request, e, others, hsplit, hlast⟩ := haccount
  · rw [hall] at htold
    exact ⟨v.told, [], before, (List.append_nil _).symm, hbefore, carried_out_all service htold,
      .inl ⟨rfl, hhandled⟩⟩
  · rw [hsplit] at htold
    -- The calls before the one that failed, and the others.
    generalize hcount : (before.map (Conversation.relayed service.handler)).length = n at *
    have hfirst := List.forall₂_take_append _ _ _ htold
    have hrest := List.forall₂_drop_append _ _ _ htold
    rw [hcount] at hfirst hrest
    obtain ⟨⟨c, result⟩, others', hread, hothers, hcons⟩ := List.forall₂_cons_right_iff.mp hrest
    obtain ⟨hfits, ⟨client, hsent⟩, hresult⟩ := hread
    obtain rfl : result = .error (make_error e.code (c.what ++ text ": " ++ e.detail)) := hresult
    obtain rfl : request = c.frame client := hsent
    refine ⟨v.told.take n, v.told.drop n, before, (List.take_append_drop _ _).symm, hbefore,
      carried_out_all service hfirst, .inr ⟨c, _, others', hcons, fun hnone => ?_⟩⟩
    rw [hnone] at hothers
    obtain hsame | ⟨state, htaken⟩ := hlast (List.forall₂_nil_left_iff.mp hothers)
    · exact .inl hsame
    · exact .inr ⟨_, htaken, gets_frame hfits client state⟩

/-- No send of the client breaks off. -/
def Happening.sends : Happening σ → Prop
  | .command c => c.crossing.sent = none
  | .doing _ => True

/-- Nothing breaks: the server takes the command, and stays. -/
def Happening.holds : Happening σ → Prop
  | .command c => c.crossing.Whole
  | .doing d => d.holds

end RemoteApi

end MaintenanceFabric
