import Mathlib.Data.List.Nodup
import FrbL1.RpcClient
/-!
# RpcClientReplies — where a reply is, and who gets it

For each token the replies read from the sockets are, in this order, those the waits have returned for it, the one in
the `results` of the wait that is running, and those buffered in `self.received` (`Inv`): nothing is lost, duplicated
or returned for another token.  Two further invariants go with the callers: every request has a token of its own
(`Sent`), so that the entries of a multi-server call are from its own servers (`CallsOk`); and what
`wait_for_all_writes` collects for a token is a run of consecutive replies (`WritesOk`).
-/
namespace FrbL1
namespace Client

open Trans

variable {Server Parts : Type}

/-! ## Where the replies of a token are -/

/-- The replies under a token read from the sockets, in order. -/
def State.readsFor (s : State Server Parts) (t : Int) : List (Server × Parts) :=
  s.reads.filterMap (fun r => if r.2.token = t then some (r.1, r.2.rest) else none)

/-- The replies in `self.received` under a token. -/
def State.bufferedFor (s : State Server Parts) (t : Int) : List (Server × Parts) := (s.received t).getD []

def Pc.current : Pc Server Parts → Int → List (Server × Parts)
  | .waiting w _, t => (w.results t).toList
  | _,            _ => []

/-- The replies given out as results for a token. -/
def State.deliveredFor (s : State Server Parts) (t : Int) : List (Server × Parts) := s.returnedFor t ++ s.pc.current t

/-! ## The wait loop -/

def WaitPc.rest : WaitPc Server → List Int
  | .popping rest _ => rest
  | _               => []

def WaitPc.done : WaitPc Server → List Int
  | .popping _ done => done
  | _               => []

/-- The loop of `wait_for_tokens`: a token has a result or is still in `todo`, and it leaves `todo` only at the end of
the `for` loop that popped its reply. -/
structure Wait.Ok (w : Wait Server Parts) : Prop where
  nodup     : w.tokens.Nodup
  results   : ∀ t, w.results t ≠ none → t ∈ w.tokens
  todo      : w.todo.Nodup
  sub       : ∀ t ∈ w.todo, t ∈ w.tokens
  pending   : ∀ t ∈ w.todo, t ∉ w.pc.done → w.results t = none
  found     : ∀ t ∈ w.pc.done, w.results t ≠ none
  settled   : ∀ t ∈ w.tokens, t ∉ w.todo → w.results t ≠ none
  rest      : w.pc.rest.Nodup
  restTodo  : ∀ t ∈ w.pc.rest, t ∈ w.todo ∧ t ∉ w.pc.done
  returning : w.pc = .returning → w.todo = [] ∨ 0 ≤ w.timeout

theorem ok_begin (tokens : List Int) (timeout : ℚ) (h : tokens.Nodup) :
    (⟨tokens, timeout, fun _ => none, tokens, .popping tokens []⟩ : Wait Server Parts).Ok where
  nodup     := h
  results   := fun _ hn => absurd rfl hn
  todo      := h
  sub       := fun _ ht => ht
  pending   := fun _ _ _ => rfl
  found     := fun _ ht => nomatch ht
  settled   := fun _ ht hn => absurd ht hn
  rest      := h
  restTodo  := fun _ ht => ⟨ht, fun hd => nomatch hd⟩
  returning := fun hr => nomatch hr

theorem ok_skip {tokens todo rest done : List Int} {timeout : ℚ} {results : Int → Option (Server × Parts)} {t : Int}
    (h : (⟨tokens, timeout, results, todo, .popping (t :: rest) done⟩ : Wait Server Parts).Ok) :
    (⟨tokens, timeout, results, todo, .popping rest done⟩ : Wait Server Parts).Ok where
  nodup     := h.nodup
  results   := h.results
  todo      := h.todo
  sub       := h.sub
  pending   := h.pending
  found     := h.found
  settled   := h.settled
  rest      := (List.nodup_cons.1 h.rest).2
  restTodo  := fun u hu => h.restTodo u (List.mem_cons_of_mem t hu)
  returning := fun hr => nomatch hr

theorem result_of_rest {tokens todo rest done : List Int} {timeout : ℚ} {results : Int → Option (Server × Parts)}
    {t : Int} (h : (⟨tokens, timeout, results, todo, .popping (t :: rest) done⟩ : Wait Server Parts).Ok) :
    results t = none :=
  h.pending t (h.restTodo t (.head _)).1 (h.restTodo t (.head _)).2

theorem ok_found {tokens todo rest done : List Int} {timeout : ℚ} {results : Int → Option (Server × Parts)} {t : Int}
    (h : (⟨tokens, timeout, results, todo, .popping (t :: rest) done⟩ : Wait Server Parts).Ok) (r : Server × Parts) :
    (⟨tokens, timeout, fun u => if u = t then some r else results u, todo, .popping rest (done ++ [t])⟩ :
      Wait Server Parts).Ok where
  nodup     := h.nodup
  results   := fun u hu => by
    by_cases hut : u = t
    · rw [hut]; exact h.sub t (h.restTodo t (.head _)).1
    · exact h.results u (by simpa [hut] using hu)
  todo      := h.todo
  sub       := h.sub
  pending   := fun u hu hd => by
    have hd' : u ∉ done ∧ u ≠ t := by simpa [WaitPc.done, not_or] using hd
    simpa [hd'.2] using h.pending u hu hd'.1
  found     := fun u hu => by
    by_cases hut : u = t
    · simp [hut]
    · have hu' : u ∈ done := by simpa [WaitPc.done, hut] using hu
      simpa [hut] using h.found u hu'
  settled   := fun u hu hn => by
    by_cases hut : u = t
    · simp [hut]
    · simpa [hut] using h.settled u hu hn
  rest      := (List.nodup_cons.1 h.rest).2
  restTodo  := fun u hu => by
    have hne : u ≠ t := fun he => (List.nodup_cons.1 h.rest).1 (he ▸ hu)
    obtain ⟨h1, h2⟩ := h.restTodo u (List.mem_cons_of_mem t hu)
    refine ⟨h1, fun hd => ?_⟩
    rcases List.mem_append.1 hd with hd | hd
    · exact h2 hd
    · exact hne (List.mem_singleton.1 hd)
  returning := fun hr => nomatch hr

theorem ok_popped {tokens todo done : List Int} {timeout : ℚ} {results : Int → Option (Server × Parts)}
    (h : (⟨tokens, timeout, results, todo, .popping [] done⟩ : Wait Server Parts).Ok) :
    (⟨tokens, timeout, results, todo.diff done, if todo.diff done = [] then .returning else .polling false⟩ :
      Wait Server Parts).Ok := by
  have hmem : ∀ t, t ∈ todo.diff done ↔ t ∈ todo ∧ t ∉ done := fun t => List.Nodup.mem_sdiff_iff h.todo
  have hpc : ∀ t : Int, t ∉ (if todo.diff done = [] then .returning else .polling false : WaitPc Server).done ∧
      t ∉ (if todo.diff done = [] then .returning else .polling false : WaitPc Server).rest := by
    intro t
    split <;> exact ⟨List.not_mem_nil, List.not_mem_nil⟩
  exact {
    nodup     := h.nodup
    results   := h.results
    todo      := h.todo.diff
    sub       := fun t ht => h.sub t ((hmem t).1 ht).1
    pending   := fun t ht _ => h.pending t ((hmem t).1 ht).1 ((hmem t).1 ht).2
    found     := fun t ht => absurd ht (hpc t).1
    settled   := fun t ht hn => by
      by_cases htodo : t ∈ todo
      · exact h.found t (by_contra (fun hd => hn ((hmem t).2 ⟨htodo, hd⟩)))
      · exact h.settled t ht htodo
    rest      := by split <;> exact List.nodup_nil
    restTodo  := fun t ht => absurd ht (hpc t).2
    returning := fun hr => .inl (by
      by_contra hne
      simp [hne] at hr) }

theorem ok_receive {tokens todo : List Int} {timeout : ℚ} {results : Int → Option (Server × Parts)}
    {pc pc' : WaitPc Server} (h : (⟨tokens, timeout, results, todo, pc⟩ : Wait Server Parts).Ok) (hd : pc.done = [])
    (hd' : pc'.done = []) (hr' : pc'.rest = []) (hret : pc' = .returning → 0 ≤ timeout) :
    (⟨tokens, timeout, results, todo, pc'⟩ : Wait Server Parts).Ok where
  nodup     := h.nodup
  results   := h.results
  todo      := h.todo
  sub       := h.sub
  pending   := fun t ht _ => h.pending t ht (by simp [hd])
  found     := fun t ht => by simp [hd'] at ht
  settled   := h.settled
  rest      := by simp [hr']
  restTodo  := fun t ht => by simp [hr'] at ht
  returning := fun hr => .inr (hret hr)

theorem ok_polled {tokens todo : List Int} {timeout : ℚ} {results : Int → Option (Server × Parts)} {received : Bool}
    (events : List Server) (h : (⟨tokens, timeout, results, todo, .polling received⟩ : Wait Server Parts).Ok) :
    (⟨tokens, timeout, results, todo,
      if events ≠ [] then .reading events true
      else if received then .received
      else if timeout = 0 then .returning
      else .blocking⟩ : Wait Server Parts).Ok := by
  split
  · exact ok_receive h rfl rfl rfl (fun hr => nomatch hr)
  · split
    · exact ok_receive h rfl rfl rfl (fun hr => nomatch hr)
    · split
      · rename_i ht
        exact ok_receive h rfl rfl rfl (fun _ => ht.ge)
      · exact ok_receive h rfl rfl rfl (fun hr => nomatch hr)

theorem ok_adjust {tokens todo : List Int} {timeout timeout' : ℚ} {results : Int → Option (Server × Parts)}
    (h : (⟨tokens, timeout, results, todo, .received⟩ : Wait Server Parts).Ok) :
    (⟨tokens, timeout', results, todo, .popping todo []⟩ : Wait Server Parts).Ok where
  nodup     := h.nodup
  results   := h.results
  todo      := h.todo
  sub       := h.sub
  pending   := fun t ht _ => h.pending t ht (fun hd => nomatch hd)
  found     := fun _ ht => nomatch ht
  settled   := h.settled
  rest      := h.todo
  restTodo  := fun _ ht => ⟨ht, fun hd => nomatch hd⟩
  returning := fun hr => nomatch hr

/-- A wait with distinct tokens returns its results, each for its own token. -/
theorem deliveredIn_map (results : Int → Option (Server × Parts)) (t : Int) : ∀ (tokens : List Int), tokens.Nodup →
    deliveredIn (tokens.map (fun u => (u, results u))) t = if t ∈ tokens then (results t).toList else []
  | [], _ => rfl
  | u :: us, h => by
    obtain ⟨hu, hus⟩ := List.nodup_cons.1 h
    have ih := deliveredIn_map results t us hus
    unfold deliveredIn at ih ⊢
    rw [List.map_cons, List.filterMap_cons, ih]
    by_cases hut : u = t
    · subst hut
      cases results u <;> simp [hu]
    · simp [hut, Ne.symm hut]

theorem deliveredIn_results (w : Wait Server Parts) (h : w.Ok) (t : Int) :
    deliveredIn (w.tokens.map (fun u => (u, w.results u))) t = (w.results t).toList := by
  rw [deliveredIn_map w.results t w.tokens h.nodup]
  by_cases ht : t ∈ w.tokens
  · rw [if_pos ht]
  · have hn : w.results t = none := by
      by_contra hne
      exact ht (h.results t hne)
    rw [if_neg ht, hn]; rfl

theorem waiting_ok {w : Wait Server Parts} {k : Caller Server Parts} (h : w.Ok) :
    ∀ w' k', Pc.waiting w k = .waiting w' k' → w'.Ok := by
  intro w' k' he
  cases he
  exact h

theorem returnedFor_append {s s' : State Server Parts} {es : List (Entry Server Parts)}
    (h : s'.returned = s.returned ++ [es]) (t : Int) : s'.returnedFor t = s.returnedFor t ++ deliveredIn es t := by
  simp [State.returnedFor, returnedIn, h]

/-! ## The calls -/

theorem sendAll_length : ∀ (ks : List Server) (t : Int), (sendAll t ks).length = ks.length
  | [], _ => rfl
  | k :: ks, t => by rw [sendAll, List.length_cons, List.length_cons, sendAll_length ks (t + 1)]

theorem zip_sendAll : ∀ (ks : List Server) (t : Int), ks.zip ((sendAll t ks).map (·.2)) = sendAll t ks
  | [], _ => rfl
  | k :: ks, t => by rw [sendAll, List.map_cons, List.zip_cons_cons, zip_sendAll ks (t + 1)]

theorem sendAll_bounds : ∀ (ks : List Server) (t : Int), ∀ x ∈ sendAll t ks, t < x.2 ∧ x.2 ≤ t + ks.length
  | [], _, _, hx => nomatch hx
  | k :: ks, t, x, hx => by
    rw [sendAll, List.mem_cons] at hx
    rw [List.length_cons]
    rcases hx with rfl | hx
    · constructor <;> simp only <;> omega
    · obtain ⟨h1, h2⟩ := sendAll_bounds ks (t + 1) x hx
      constructor <;> omega

theorem sendAll_nodup : ∀ (ks : List Server) (t : Int), ((sendAll t ks).map (·.2)).Nodup
  | [], _ => List.nodup_nil
  | k :: ks, t => by
    rw [sendAll, List.map_cons, List.nodup_cons]
    refine ⟨fun hm => ?_, sendAll_nodup ks (t + 1)⟩
    obtain ⟨x, hx, he⟩ := List.mem_map.1 hm
    have := (sendAll_bounds ks (t + 1) x hx).1
    omega

variable {chunkListLen : Parts → Option Nat} {unpacksReply : Parts → Bool}

/-- What follows a wait touches neither the sockets nor `self.received`, and does not wait yet. -/
theorem afterWait_frame (s : State Server Parts) (w : Wait Server Parts) (dt : ℚ) (k : Caller Server Parts) :
    let s' := s.afterWait chunkListLen unpacksReply w dt k
    s'.received = s.received ∧ s'.inbox = s.inbox ∧ s'.arrived = s.arrived ∧ s'.reads = s.reads ∧
    s'.returned = s.returned ∧ s'.sent = s.sent ∧ s'.token = s.token ∧ ∀ w' k', s'.pc ≠ .waiting w' k' := by
  cases k with
  | user => exact ⟨rfl, rfl, rfl, rfl, rfl, rfl, rfl, fun _ _ h => nomatch h⟩
  | request servers => exact ⟨rfl, rfl, rfl, rfl, rfl, rfl, rfl, fun _ _ h => nomatch h⟩
  | writeChunks servers waitAll timeout =>
    simp only [State.afterWait]
    split
    · exact ⟨rfl, rfl, rfl, rfl, rfl, rfl, rfl, fun _ _ h => nomatch h⟩
    · split <;> exact ⟨rfl, rfl, rfl, rfl, rfl, rfl, rfl, fun _ _ h => nomatch h⟩
  | allWrites a g =>
    simp only [State.afterWait]
    split
    · exact ⟨rfl, rfl, rfl, rfl, rfl, rfl, rfl, fun _ _ h => nomatch h⟩
    · refine ⟨rfl, rfl, rfl, rfl, rfl, rfl, rfl, fun w' k' h => ?_⟩
      simp only at h
      split at h <;> cases h

/-! ## Nothing is lost -/

section
variable [DecidableEq Server]

def State.arrivedFrom (s : State Server Parts) (k : Server) : List (Message Parts) :=
  s.arrived.filterMap (fun r => if r.1 = k then some r.2 else none)

def State.readFrom (s : State Server Parts) (k : Server) : List (Message Parts) :=
  s.reads.filterMap (fun r => if r.1 = k then some r.2 else none)

/-- **Every reply that was read is in exactly one place**, under its own token and in order. -/
structure Inv (s : State Server Parts) : Prop where
  once     : ∀ t, s.readsFor t = s.deliveredFor t ++ s.bufferedFor t
  buffered : ∀ t, s.received t ≠ some []
  sockets  : ∀ k, s.arrivedFrom k = s.readFrom k ++ s.inbox k
  waiting  : ∀ w k, s.pc = .waiting w k → w.Ok

/-- **What the user promises**: the tokens of one `wait_for_tokens` are distinct. -/
def Distinct (_ : State Server Parts) : Action Server Parts → Prop
  | .waitForTokens tokens _ => tokens.Nodup
  | _                       => True

instance (s : State Server Parts) : (a : Action Server Parts) → Decidable (Distinct s a)
  | .waitForTokens tokens _ => inferInstanceAs (Decidable tokens.Nodup)
  | .arrive _ _ | .request _ _ _ _ | .waitForAllWrites _ _ _ | .popToken | .popped | .poll _ | .recvMultipart
  | .eventsDone | .adjustTimeout _ | .waitReturns _ | .nextToken | .nextReply => isTrue trivial

theorem inv_init : Inv (State.init : State Server Parts) where
  once     := fun _ => rfl
  buffered := fun _ h => nomatch h
  sockets  := fun _ => rfl
  waiting  := fun _ _ h => nomatch h

theorem inv_of_same {s s' : State Server Parts} (hI : Inv s) (hreads : s'.reads = s.reads)
    (hret : s'.returned = s.returned) (hrec : s'.received = s.received) (hinbox : s'.inbox = s.inbox)
    (harr : s'.arrived = s.arrived) (hcur : ∀ t, s'.pc.current t = s.pc.current t)
    (hw : ∀ w k, s'.pc = .waiting w k → w.Ok) : Inv s' where
  once     := fun t => by
    have h := hI.once t
    unfold State.readsFor State.deliveredFor State.returnedFor State.bufferedFor at h ⊢
    rw [hreads, hret, hrec, hcur]
    exact h
  buffered := by rw [hrec]; exact hI.buffered
  sockets  := fun k => by
    have h := hI.sockets k
    unfold State.arrivedFrom State.readFrom at h ⊢
    rw [harr, hreads, hinbox]
    exact h
  waiting  := hw

/-! ## The steps -/

theorem inv_recv {s s' : State Server Parts} {e : Server} {m : Message Parts} {ms : List (Message Parts)} (hI : Inv s)
    (hin : s.inbox e = m :: ms) (hreads : s'.reads = s.reads ++ [(e, m)]) (hret : s'.returned = s.returned)
    (hrec : s'.received = fun t => if t = m.token then some ((s.received t).getD [] ++ [(e, m.rest)]) else s.received t)
    (hinbox : s'.inbox = fun e' => if e' = e then ms else s.inbox e') (harr : s'.arrived = s.arrived)
    (hcur : ∀ t, s'.pc.current t = s.pc.current t) (hw : ∀ w k, s'.pc = .waiting w k → w.Ok) : Inv s' where
  once     := fun t => by
    have h := hI.once t
    unfold State.readsFor State.deliveredFor State.returnedFor State.bufferedFor at h ⊢
    rw [hreads, hret, hrec, hcur, List.filterMap_append, h]
    by_cases ht : t = m.token
    · simp [ht]
    · simp [ht, Ne.symm ht]
  buffered := fun t => by
    rw [hrec]
    by_cases ht : t = m.token
    · simp [ht]
    · simpa [ht] using hI.buffered t
  sockets  := fun k => by
    have h := hI.sockets k
    unfold State.arrivedFrom State.readFrom at h ⊢
    rw [harr, hreads, hinbox, List.filterMap_append, h]
    by_cases hk : k = e
    · simp [hk, hin]
    · simp [hk, Ne.symm hk]
  waiting  := hw

theorem inv_pop {s s' : State Server Parts} {t : Int} {r : Server × Parts} {rs : List (Server × Parts)} (hI : Inv s)
    (hbuf : s.received t = some (r :: rs)) (hreads : s'.reads = s.reads) (hret : s'.returned = s.returned)
    (hrec : s'.received = fun t' => if t' = t then (if rs = [] then none else some rs) else s.received t')
    (hinbox : s'.inbox = s.inbox) (harr : s'.arrived = s.arrived) (hnone : s.pc.current t = [])
    (hcur : ∀ u, s'.pc.current u = if u = t then [r] else s.pc.current u)
    (hw : ∀ w k, s'.pc = .waiting w k → w.Ok) : Inv s' where
  once     := fun u => by
    have h := hI.once u
    unfold State.readsFor State.deliveredFor State.returnedFor State.bufferedFor at h ⊢
    rw [hreads, hret, hrec, hcur, h]
    by_cases hu : u = t
    · subst hu
      by_cases hrs : rs = [] <;> simp [hrs, hnone, hbuf]
    · simp [hu]
  buffered := fun u => by
    rw [hrec]
    by_cases hu : u = t
    · by_cases hrs : rs = [] <;> simp [hu, hrs]
    · simpa [hu] using hI.buffered u
  sockets  := fun k => by
    have h := hI.sockets k
    unfold State.arrivedFrom State.readFrom at h ⊢
    rw [harr, hreads, hinbox]
    exact h
  waiting  := hw

theorem inv_return {s s' : State Server Parts} {w : Wait Server Parts} {k : Caller Server Parts} (hI : Inv s)
    (hpc : s.pc = .waiting w k) (hret : s'.returned = s.returned ++ [w.tokens.map (fun t => (t, w.results t))])
    (hreads : s'.reads = s.reads) (hrec : s'.received = s.received) (hinbox : s'.inbox = s.inbox)
    (harr : s'.arrived = s.arrived) (hpc' : ∀ w' k', s'.pc ≠ .waiting w' k') : Inv s' where
  once     := fun t => by
    have h := hI.once t
    have hcur : s'.pc.current t = [] := by
      cases hp : s'.pc with
      | waiting w' k' => exact absurd hp (hpc' w' k')
      | idle => rfl
      | allWrites a => rfl
      | segment a g => rfl
    unfold State.deliveredFor at h ⊢
    rw [returnedFor_append hret, deliveredIn_results w (hI.waiting w k hpc), hcur, List.append_nil]
    unfold State.readsFor State.bufferedFor at h ⊢
    rw [hreads, hrec, h, hpc]
    rfl
  buffered := by rw [hrec]; exact hI.buffered
  sockets  := fun k => by
    have h := hI.sockets k
    unfold State.arrivedFrom State.readFrom at h ⊢
    rw [harr, hreads, hinbox]
    exact h
  waiting  := fun w' k' he => absurd he (hpc' w' k')

theorem inv_step (s : State Server Parts) (a : Action Server Parts) (s' : State Server Parts) (hI : Inv s)
    (h : guard (step chunkListLen unpacksReply) Distinct s a = some s') : Inv s' := by
  obtain ⟨hd, h⟩ := guard_eq_some.1 h
  cases a with
  | arrive k m =>
    simp only [step, Option.some.injEq] at h
    subst h
    refine ⟨hI.once, hI.buffered, fun k' => ?_, hI.waiting⟩
    have h := hI.sockets k'
    unfold State.arrivedFrom State.readFrom at h ⊢
    rw [List.filterMap_append, h]
    by_cases hk : k' = k
    · simp [hk]
    · simp [hk, Ne.symm hk]
  | request kind servers wait timeout =>
    simp only [step] at h
    split at h <;> cases h
    rename_i hpc
    have hok := @ok_begin Server Parts _ timeout (sendAll_nodup servers s.token)
    have hcur : ∀ t, s.pc.current t = [] := fun t => by rw [hpc]; rfl
    cases wait with
    | false => exact inv_of_same hI rfl rfl rfl rfl rfl (fun _ => rfl) (fun w k hw => hI.waiting w k hw)
    | true =>
      cases kind with
      | simple => exact inv_of_same hI rfl rfl rfl rfl rfl (fun t => (hcur t).symm) (waiting_ok hok)
      | writeChunks waitAll => exact inv_of_same hI rfl rfl rfl rfl rfl (fun t => (hcur t).symm) (waiting_ok hok)
  | waitForTokens tokens timeout =>
    simp only [step] at h
    split at h <;> cases h
    rename_i hpc
    exact inv_of_same hI rfl rfl rfl rfl rfl (fun t => by rw [hpc]; rfl) (waiting_ok (ok_begin tokens timeout hd))
  | waitForAllWrites chunklists tokens timeout =>
    simp only [step] at h
    split at h <;> cases h
    rename_i hpc
    exact inv_of_same hI rfl rfl rfl rfl rfl (fun t => by rw [hpc]; rfl) (fun _ _ hw => nomatch hw)
  | popToken =>
    simp only [step] at h
    split at h
    · rename_i tokens timeout results todo t rest done k hpc
      have hok := hI.waiting _ _ hpc
      split at h <;> cases h
      · exact inv_of_same hI rfl rfl rfl rfl rfl (fun u => by rw [hpc]; rfl) (waiting_ok (ok_skip hok))
      · rename_i hrec
        exact absurd hrec (hI.buffered t)
      · rename_i r rs hrec
        refine inv_pop hI hrec rfl rfl rfl rfl rfl ?_ (fun u => ?_) (waiting_ok (ok_found hok r))
        · rw [hpc]
          show (results t).toList = []
          rw [result_of_rest hok]; rfl
        · rw [hpc]
          show (if u = t then some r else results u).toList = if u = t then [r] else (results u).toList
          split <;> rfl
    · cases h
  | popped =>
    simp only [step] at h
    split at h <;> cases h
    rename_i hpc
    exact inv_of_same hI rfl rfl rfl rfl rfl (fun t => by rw [hpc]; rfl) (waiting_ok (ok_popped (hI.waiting _ _ hpc)))
  | poll events =>
    simp only [step] at h
    split at h
    · split at h
      · rename_i tokens timeout results todo received k hpc
        cases h
        exact inv_of_same hI rfl rfl rfl rfl rfl (fun t => by rw [hpc]; rfl)
          (waiting_ok (ok_polled events (hI.waiting _ _ hpc)))
      · rename_i hpc
        split at h
        · cases h
          exact inv_of_same hI rfl rfl rfl rfl rfl (fun t => by rw [hpc]; rfl)
            (waiting_ok (ok_receive (hI.waiting _ _ hpc) rfl rfl rfl (fun hr => nomatch hr)))
        · split at h <;> cases h
          rename_i ht
          exact inv_of_same hI rfl rfl rfl rfl rfl (fun t => by rw [hpc]; rfl)
            (waiting_ok (ok_receive (hI.waiting _ _ hpc) rfl rfl rfl (fun _ => ht)))
      · cases h
    · cases h
  | recvMultipart =>
    simp only [step] at h
    split at h
    · rename_i hpc
      split at h <;> cases h
      rename_i hin
      exact inv_recv hI hin rfl rfl rfl rfl rfl (fun t => by rw [hpc]; rfl)
        (waiting_ok (ok_receive (hI.waiting _ _ hpc) rfl rfl rfl (fun hr => nomatch hr)))
    · cases h
  | eventsDone =>
    simp only [step] at h
    split at h <;> cases h
    rename_i tokens timeout results todo nonblocking k hpc
    refine inv_of_same hI rfl rfl rfl rfl rfl (fun t => by rw [hpc]; rfl) (waiting_ok ?_)
    cases nonblocking with
    | true => exact ok_receive (hI.waiting _ _ hpc) rfl rfl rfl (fun hr => nomatch hr)
    | false => exact ok_receive (hI.waiting _ _ hpc) rfl rfl rfl (fun hr => nomatch hr)
  | adjustTimeout dt =>
    simp only [step] at h
    split at h <;> cases h
    rename_i hpc
    exact inv_of_same hI rfl rfl rfl rfl rfl (fun t => by rw [hpc]; rfl) (waiting_ok (ok_adjust (hI.waiting _ _ hpc)))
  | waitReturns dt =>
    simp only [step] at h
    split at h <;> cases h
    rename_i hpc
    obtain ⟨hrec, hinbox, harr, hreads, hret, -, -, hpc'⟩ := @afterWait_frame _ _ chunkListLen unpacksReply _ _ dt _
    exact inv_return hI hpc hret hreads hrec hinbox harr hpc'
  | nextToken =>
    simp only [step] at h
    split at h
    · rename_i hpc
      split at h <;> cases h
      · exact inv_of_same hI rfl rfl rfl rfl rfl (fun t => by rw [hpc]; rfl) (fun _ _ hw => nomatch hw)
      · exact inv_of_same hI rfl rfl rfl rfl rfl (fun t => by rw [hpc]; rfl) (fun _ _ hw => nomatch hw)
      · exact inv_of_same hI rfl rfl rfl rfl rfl (fun t => by rw [hpc]; rfl) (fun _ _ hw => nomatch hw)
    · cases h
  | nextReply =>
    simp only [step] at h
    split at h
    · rename_i a g hpc
      cases h
      split
      · exact inv_of_same hI rfl rfl rfl rfl rfl (fun t => by rw [hpc]; rfl)
          (waiting_ok (ok_begin [g.token] a.timeout (List.nodup_singleton g.token)))
      · exact inv_of_same hI rfl rfl rfl rfl rfl (fun t => by rw [hpc]; rfl) (fun _ _ hw => nomatch hw)
    · cases h

end

end Client
end FrbL1
