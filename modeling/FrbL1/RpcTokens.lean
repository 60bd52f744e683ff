import FrbL1.RpcClientCalls
import FrbL1.RpcWire
/-!
# RpcTokens — the tokens of a client's requests

The client counts its requests, and the counter is their token: in every run the tokens are 1, 2, 3 and so on
(`numbered_of_run`).  The server keeps a token in 32 bits, and gives up a request whose token does not fit.  So every
request and every reply keeps its token as long as fewer than `2 ^ 32` requests have been sent (`tokens_kept`).
-/
namespace FrbL1
namespace Wire

open Client
open Msgpack
open Requests (Outcome)
open Trans (run run_cons_eq_some run_invariant)

/-! ## Where the tokens come from -/

section
variable {Server Parts : Type}

theorem map_sendAll : ∀ (ks : List Server) (t : Int),
    (sendAll t ks).map (·.2) = (List.range ks.length).map (fun i => t + ((i : Nat) + 1))
  | [],      _ => rfl
  | k :: ks, t => by
    rw [sendAll, List.map_cons, map_sendAll ks, List.length_cons, List.range_succ_eq_map, List.map_cons, List.map_map]
    refine congrArg₂ List.cons (by simp) (List.map_congr_left (fun i _ => ?_))
    simp only [Function.comp_apply]
    push_cast
    ring

structure Numbered (s : State Server Parts) : Prop where
  tokens : s.sent.map (·.2) = (List.range s.sent.length).map (fun i => ((i : Nat) : Int) + 1)
  token  : s.token = s.sent.length

theorem Numbered.nodup {s : State Server Parts} (hn : Numbered s) : (s.sent.map (·.2)).Nodup := by
  rw [hn.tokens]
  exact List.nodup_range.map (fun i j h => by simpa using h)

theorem Numbered.mem_iff {s : State Server Parts} (hn : Numbered s) {t : Int} :
    t ∈ s.sent.map (·.2) ↔ 0 < t ∧ t ≤ s.sent.length := by
  rw [hn.tokens, List.mem_map]
  constructor
  · rintro ⟨i, hi, rfl⟩
    have hlt := List.mem_range.1 hi
    omega
  · rintro ⟨h0, hle⟩
    exact ⟨(t - 1).toNat, List.mem_range.2 (by omega), by omega⟩

variable [DecidableEq Server] {chunkListLen : Parts → Option Nat} {unpacksReply : Parts → Bool}

theorem step_sent {s s' : State Server Parts} {a : Action Server Parts}
    (h : step chunkListLen unpacksReply s a = some s') :
    (s'.sent = s.sent ∧ s'.token = s.token) ∨
    ∃ servers, s'.sent = s.sent ++ sendAll s.token servers ∧ s'.token = s.token + servers.length := by
  by_cases hi : a.inner = true
  · have hinner := step_inner hi h
    exact .inl ⟨hinner.sent, hinner.token⟩
  cases a with
  | request kind servers wait timeout =>
    simp only [step] at h
    split at h <;> cases h
    refine .inr ⟨servers, ?_⟩
    cases wait with
    | false => exact ⟨rfl, rfl⟩
    | true => cases kind <;> exact ⟨rfl, rfl⟩
  | waitReturns dt =>
    simp only [step] at h
    split at h <;> cases h
    obtain ⟨-, -, -, -, -, hsent, htoken, -⟩ :=
      @afterWait_frame _ _ chunkListLen unpacksReply _ _ dt _
    exact .inl ⟨hsent, htoken⟩
  | waitForTokens tokens timeout | waitForAllWrites chunklists tokens timeout =>
    simp only [step] at h
    split at h <;> cases h
    exact .inl ⟨rfl, rfl⟩
  | nextToken =>
    simp only [step] at h
    split at h
    · split at h <;> cases h <;> exact .inl ⟨rfl, rfl⟩
    · cases h
  | nextReply =>
    simp only [step] at h
    split at h
    · cases h
      split <;> exact .inl ⟨rfl, rfl⟩
    · cases h
  | _ => exact absurd rfl hi

theorem numbered_step (s : State Server Parts) (a : Action Server Parts) (s' : State Server Parts) (hn : Numbered s)
    (h : step chunkListLen unpacksReply s a = some s') : Numbered s' := by
  rcases step_sent h with ⟨hsent, htoken⟩ | ⟨servers, hsent, htoken⟩
  · exact ⟨by rw [hsent]; exact hn.tokens, by rw [hsent, htoken]; exact hn.token⟩
  · have hlen : s'.sent.length = s.sent.length + servers.length := by rw [hsent, List.length_append, sendAll_length]
    constructor
    · rw [hlen, hsent, List.map_append, hn.tokens, map_sendAll, List.range_add, List.map_append, List.map_map, hn.token]
      refine congrArg₂ _ rfl (List.map_congr_left (fun i _ => ?_))
      simp only [Function.comp_apply]
      push_cast
      ring
    · rw [hlen, htoken, hn.token]
      push_cast
      rfl

theorem numbered_of_run {actions : List (Action Server Parts)} {s : State Server Parts}
    (h : run (step chunkListLen unpacksReply) .init actions = some s) : Numbered s :=
  run_invariant _ Numbered numbered_step actions .init s ⟨rfl, rfl⟩ h

end

/-! ## What becomes of a token -/

def tokenToMessage (c : Codec) (token : UInt32) : Option (List UInt8) := c.pack (.posInt token.toUInt64)

def pythonInt : Object → Option Int
  | .posInt n   => some n.toNat
  | .negInt n _ => some n.toInt
  | _           => none

/-- The first part of a reply, as the client unpacks it. -/
def replyToken (c : Codec) (part : List UInt8) : Option Int := (c.unpackb part).bind pythonInt

/-- A request is sent under a token, which the server reads and sends back, and the client reads again. -/
def TokenKept (c : Codec) (function : List Char) (token : Int) : Prop :=
  ∃ header, packHeader c function token = some header ∧ ∀ args, ∃ offset t part,
    receiveHeader c (header ++ args) = .ok (⟨function, t⟩, offset) ∧ (t.toNat : Int) = token ∧
    tokenToMessage c t = some part ∧ replyToken c part = some token

def functions : List (List Char) :=
  ["get_statistics".toList, "get_packet_rate".toList, "get_packet_rate_history".toList, "stream".toList,
    "stream_status".toList, "list_chunks".toList, "write_chunks".toList, "get_writechunk_status".toList,
    "shutdown".toList, "start_logging".toList, "stop_logging".toList, "get_masked_frequencies".toList,
    "get_max_fpga_counts".toList]

structure Codec.PacksTokens (c : Codec) : Prop where
  header : ∀ function ∈ functions, ∀ token : Int, 0 ≤ token → token < 2 ^ 32 → (packHeader c function token).isSome
  token  : ∀ token, (tokenToMessage c token).isSome

section
variable {c : Codec} (hc : c.Correct)
include hc

/-- A token that does not fit ends the request with an exception, which is logged and ignored. -/
theorem receiveHeader_of_large {function : List Char} {token : Int} (htoken : 2 ^ 32 ≤ token) {header : List UInt8}
    (h : packHeader c function token = some header) (args : List UInt8) :
    receiveHeader c (header ++ args) = .error (.thrown "std::bad_cast".toList) := by
  rw [receiveHeader_packHeader hc (by omega) h, if_neg (by omega)]

theorem tokenKept_iff (hpacks : Codec.PacksTokens c) {function : List Char} (hfunction : function ∈ functions)
    {token : Int} (h0 : 0 ≤ token) : TokenKept c function token ↔ token < 2 ^ 32 := by
  constructor
  · rintro ⟨header, hheader, hkept⟩
    by_contra hlarge
    obtain ⟨offset, t, part, hreceive, -⟩ := hkept []
    rw [receiveHeader_of_large hc (not_lt.1 hlarge) hheader] at hreceive
    cases hreceive
  · intro htoken
    obtain ⟨header, hheader⟩ := Option.isSome_iff_exists.1 (hpacks.header function hfunction token h0 htoken)
    obtain ⟨part, hpart⟩ := Option.isSome_iff_exists.1 (hpacks.token (UInt32.ofNat token.toNat))
    have hnat : ((UInt32.ofNat token.toNat).toNat : Int) = token := by
      rw [UInt32.toNat_ofNat_of_lt' (by show token.toNat < 2 ^ 32; omega)]
      omega
    refine ⟨header, hheader, fun args => ⟨header.length, UInt32.ofNat token.toNat, part, ?_, hnat, hpart, ?_⟩⟩
    · rw [receiveHeader_packHeader hc h0 hheader, if_pos htoken]
    · unfold replyToken
      rw [hc.unpackb hpart, Option.bind_some]
      show some (((UInt32.ofNat token.toNat).toUInt64.toNat : Nat) : Int) = _
      rw [UInt32.toNat_toUInt64, hnat]

end

/-- **The tokens of a run** are all different; and every request, whichever function it calls, is read by its server under
its token and answered under it, exactly as long as fewer than `2 ^ 32` requests have been sent. -/
theorem tokens_kept {Server Parts : Type} [DecidableEq Server] (chunkListLen : Parts → Option Nat)
    (unpacksReply : Parts → Bool) (c : Codec) (hc : c.Correct) (hpacks : Codec.PacksTokens c)
    (actions : List (Action Server Parts)) (s : State Server Parts)
    (hrun : run (step chunkListLen unpacksReply) .init actions = some s) :
    (s.sent.map (·.2)).Nodup ∧
    ((∀ x ∈ s.sent, ∀ function ∈ functions, TokenKept c function x.2) ↔ s.sent.length < 2 ^ 32) := by
  have hn := numbered_of_run hrun
  refine ⟨hn.nodup, ?_⟩
  constructor
  · intro h
    by_contra hlarge
    have hmem : (2 ^ 32 : Int) ∈ s.sent.map (·.2) := hn.mem_iff.2 ⟨by decide, by omega⟩
    obtain ⟨x, hx, hxt⟩ := List.mem_map.1 hmem
    have hkept := h x hx _ (.head _)
    rw [hxt, tokenKept_iff hc hpacks (.head _) (by decide)] at hkept
    exact absurd hkept (lt_irrefl _)
  · intro hlen x hx function hfunction
    obtain ⟨h0, hle⟩ := hn.mem_iff.1 (List.mem_map.2 ⟨x, hx, rfl⟩)
    exact (tokenKept_iff hc hpacks hfunction h0.le).2 (by omega)

/-! ## The format packs them -/

theorem pack_ofList {os : List Object} {o : Object} (h : Object.ofList os = some o) :
    codec.pack o = (os.mapM Msgpack.pack).map (fun parts => packSize os.length ++ parts.flatten) := by
  obtain ⟨hlen, rfl⟩ := Object.ofList_eq_some h
  show Option.map _ (List.mapM id (List.ofFn (fun i : Fin os.length => Msgpack.pack (os.get i)))) = _
  have hofFn : List.ofFn (fun i : Fin os.length => Msgpack.pack (os.get i)) = os.map Msgpack.pack :=
    List.map_ofFn.symm.trans (congrArg (List.map Msgpack.pack) (List.ofFn_get os))
  rw [hofFn, List.mapM_map]
  rfl

theorem codec_packsTokens : Codec.PacksTokens codec where
  header := fun function hfunction token h0 htoken => by
    have htext : ∀ f ∈ functions, (packText (utf8 f)).isSome := by decide +kernel
    obtain ⟨text, htext⟩ := Option.isSome_iff_exists.1 (htext function hfunction)
    obtain ⟨o, ho⟩ : ∃ o, Object.ofList [.str function, .posInt (UInt64.ofNat token.toNat)] = some o := ⟨_, rfl⟩
    have htextpack : Msgpack.pack (.str function) = some text := htext
    unfold packHeader
    rw [Object.ofInt_eq_posInt h0 (by omega), Option.bind_some, ho, Option.bind_some, pack_ofList ho, List.mapM_cons,
      htextpack]
    rfl
  token := fun _ => rfl

/-! ## Long runs -/

/-- One server, asked for its statistics `n` times. -/
def polling (n : Nat) : List (Client.Action Unit Unit) := List.replicate n (.request .simple [()] false 0)

theorem run_polling : ∀ (n : Nat) (s : State Unit Unit), s.pc = .idle →
    ∃ s', run (step (fun _ => none) (fun _ => false)) s (polling n) = some s' ∧ s'.sent.length = s.sent.length + n
  | 0,     s, _  => ⟨s, rfl, rfl⟩
  | n + 1, s, hs => by
    obtain ⟨s', hs', hlen⟩ := run_polling n
      { s with token := s.token + 1, sent := s.sent ++ sendAll s.token [()] } hs
    refine ⟨s', (run_cons_eq_some _ _ _ _ _).2 ⟨_, ?_, hs'⟩, ?_⟩
    · simp only [step, hs]
      rfl
    · rw [hlen, List.length_append, sendAll_length, List.length_singleton, Nat.add_assoc, Nat.add_comm 1 n]

theorem tokens_kept_polling : ∃ s, run (step (fun _ => none) (fun _ => false)) .init (polling 3) = some s ∧
    s.sent = [((), 1), ((), 2), ((), 3)] ∧ ∀ x ∈ s.sent, ∀ function ∈ functions, TokenKept codec function x.2 := by
  refine ⟨_, rfl, rfl, ?_⟩
  exact (tokens_kept (fun _ => none) (fun _ => false) codec codec_correct codec_packsTokens (polling 3) _ rfl).2.2
    (by decide)

/-- **A run in which a request is lost**: the `2 ^ 32`-th. -/
theorem token_lost : ∃ s, run (step (fun _ => none) (fun _ => false)) .init (polling (2 ^ 32)) = some s ∧
    ∃ x ∈ s.sent, x.2 = 2 ^ 32 ∧ ¬ TokenKept codec "get_statistics".toList x.2 := by
  obtain ⟨s, hs, hlen⟩ := run_polling (2 ^ 32) .init rfl
  have hn := numbered_of_run hs
  have hmem : (2 ^ 32 : Int) ∈ s.sent.map (·.2) := hn.mem_iff.2 ⟨by decide, by rw [hlen]; exact le_of_eq (by rfl)⟩
  obtain ⟨x, hx, hxt⟩ := List.mem_map.1 hmem
  refine ⟨s, hs, x, hx, hxt, ?_⟩
  rw [hxt, tokenKept_iff codec_correct codec_packsTokens (.head _) (by decide)]
  exact lt_irrefl _

end Wire
end FrbL1
