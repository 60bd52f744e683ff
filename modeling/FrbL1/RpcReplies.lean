import Mathlib.Data.List.Perm.Basic
import Mathlib.Data.List.TakeWhile
import FrbL1.RpcServer
/-!
# RpcReplies — what one client hears under one token

The purpose of the server, one client and one token at a time, is a small automaton (`Stage`): a `write_chunks` request
for chunks `ks` is answered by the list of `ks`, then by one `WriteChunks_Reply` for each of them, in any order.  The
server refines it (`Inv`, `inv_step`): under every token the log is a word of the automaton, and the replies the
automaton still waits for are those of the writes in flight and of the queue.  The automaton's words have the shape the
protocol promises (`run_listing`).
-/
namespace FrbL1
namespace Rpc

open Trans

/-! ## The protocol under one token -/

inductive Stage
  | listing (keys : List Key)
  | replying (rest : List Key)
  | asked
  deriving DecidableEq, Repr

def Stage.next : Stage → Traffic → Option Stage
  | .replying [],   .writeChunks ks            => some (.listing ks)
  | .replying [],   .otherRequest              => some .asked
  | .listing ks,    .message (.chunkList rs)   => if rs.map (·.key) = ks then some (.replying ks) else none
  | .replying rest, .message (.written r)      => if r.key ∈ rest then some (.replying (rest.erase r.key)) else none
  | .asked,         .message (.status _ _)     => some (.replying [])
  | .asked,         .message (.other _)        => some (.replying [])
  | _,              _                          => none

def Traffic.isMessage : Traffic → Bool
  | .message _ => true
  | _          => false

/-- **After the list**: replies of chunks still waited for, each at most once, up to the next request, which comes when
none is left. -/
theorem run_replying : ∀ (post : List Traffic) (rest : List Key) (st : Stage),
    run Stage.next (.replying rest) post = some st →
    ∃ (ws : List WriteChunksReply) (left : List Key),
      post.takeWhile Traffic.isMessage = ws.map (fun r => .message (.written r)) ∧
      (ws.map (·.key) ++ left).Perm rest ∧
      (post.dropWhile Traffic.isMessage = [] → st = .replying left) ∧
      (post.dropWhile Traffic.isMessage ≠ [] → left = [])
  | [], rest, st, h => by
    simp only [run_nil, Option.some.injEq] at h
    exact ⟨[], rest, rfl, List.Perm.refl _, fun _ => h.symm, fun hne => absurd rfl hne⟩
  | x :: post, rest, st, h => by
    obtain ⟨t, hx, h⟩ := (run_cons_eq_some _ _ _ _ _).1 h
    cases x with
    | message c =>
      cases c with
      | written r =>
        simp only [Stage.next, Option.ite_none_right_eq_some, Option.some.injEq] at hx
        obtain ⟨hr, rfl⟩ := hx
        obtain ⟨ws, left, hws, hperm, hend, hmore⟩ := run_replying post _ st h
        refine ⟨r :: ws, left, ?_, ?_, ?_, ?_⟩
        · rw [List.takeWhile_cons_of_pos rfl, hws]; rfl
        · exact (hperm.cons r.key).trans (List.perm_cons_erase hr).symm
        · simpa [List.dropWhile_cons, Traffic.isMessage] using hend
        · simpa [List.dropWhile_cons, Traffic.isMessage] using hmore
      | chunkList rs => simp [Stage.next] at hx
      | status a b => simp [Stage.next] at hx
      | other p => simp [Stage.next] at hx
    | writeChunks ks =>
      have hrest : rest = [] := by
        cases rest with
        | nil => rfl
        | cons k rest => simp [Stage.next] at hx
      exact ⟨[], [], rfl, by rw [hrest]; exact List.Perm.refl _, fun he => by simp [Traffic.isMessage] at he,
        fun _ => rfl⟩
    | otherRequest =>
      have hrest : rest = [] := by
        cases rest with
        | nil => rfl
        | cons k rest => simp [Stage.next] at hx
      exact ⟨[], [], rfl, by rw [hrest]; exact List.Perm.refl _, fun he => by simp [Traffic.isMessage] at he,
        fun _ => rfl⟩

/-- **After a `write_chunks` request**: nothing yet, or first the list of exactly these chunks, and then the replies. -/
theorem run_listing (post : List Traffic) (ks : List Key) (st : Stage)
    (h : run Stage.next (.listing ks) post = some st) :
    (post = [] ∧ st = .listing ks) ∨
    ∃ (rs ws : List WriteChunksReply) (left : List Key),
      post.takeWhile Traffic.isMessage = .message (.chunkList rs) :: ws.map (fun r => .message (.written r)) ∧
      rs.map (·.key) = ks ∧ (ws.map (·.key) ++ left).Perm ks ∧
      (post.dropWhile Traffic.isMessage = [] → st = .replying left) ∧
      (post.dropWhile Traffic.isMessage ≠ [] → left = []) := by
  cases post with
  | nil =>
    simp only [run_nil, Option.some.injEq] at h
    exact .inl ⟨rfl, h.symm⟩
  | cons x post =>
    obtain ⟨t, hx, h⟩ := (run_cons_eq_some _ _ _ _ _).1 h
    cases x with
    | message c =>
      cases c with
      | chunkList rs =>
        simp only [Stage.next, Option.ite_none_right_eq_some, Option.some.injEq] at hx
        obtain ⟨hks, rfl⟩ := hx
        obtain ⟨ws, left, hws, hperm, hend, hmore⟩ := run_replying post ks st h
        refine .inr ⟨rs, ws, left, ?_, hks, hperm, ?_, ?_⟩
        · rw [List.takeWhile_cons_of_pos rfl, hws]
        · simpa [List.dropWhile_cons, Traffic.isMessage] using hend
        · simpa [List.dropWhile_cons, Traffic.isMessage] using hmore
      | written r => simp [Stage.next] at hx
      | status a b => simp [Stage.next] at hx
      | other p => simp [Stage.next] at hx
    | writeChunks ks' => simp [Stage.next] at hx
    | otherRequest => simp [Stage.next] at hx

/-! ## What the server still owes -/

def Entry.isFor (c : ClientId) (t : UInt32) (e : Entry) : Bool := e.client == some c && e.token == t
def Pending.isFor (c : ClientId) (t : UInt32) (p : Pending) : Bool := p.req.client == some c && p.req.token == t
def Event.isFor (c : ClientId) (t : UInt32) (e : Event) : Bool := e.client == c && e.token == t

/-- The traffic of one client under one token. -/
def State.traffic (s : State) (c : ClientId) (t : UInt32) : List Traffic :=
  (s.log.filter (Event.isFor c t)).map (·.traffic)

def State.outstanding (s : State) (c : ClientId) (t : UInt32) : List Key :=
  (s.queue.filter (Entry.isFor c t)).map (·.reply.key) ++ (s.inflight.filter (Pending.isFor c t)).map (·.req.key)

def Pc.job (c : ClientId) (t : UInt32) : Pc → Option WriteJob
  | .writing job => if job.client = c ∧ job.token = t then some job else none
  | _            => none

def WriteJob.submitted (job : WriteJob) : List Key := job.reply.map (·.key) ++ job.current.toList.map (·.key)

/-- **What the clients promise**: a token is not used again while replies under it are outstanding. -/
def Fresh (s : State) : Action → Prop
  | .recvWriteChunks c t _ _ => s.outstanding c t = []
  | .recvStatus c t _ _      => s.outstanding c t = []
  | .recvOther c t _ _       => s.outstanding c t = []
  | _                        => True

instance (s : State) : (a : Action) → Decidable (Fresh s a)
  | .recvWriteChunks c t _ _ => inferInstanceAs (Decidable (s.outstanding c t = []))
  | .recvStatus c t _ _      => inferInstanceAs (Decidable (s.outstanding c t = []))
  | .recvOther c t _ _       => inferInstanceAs (Decidable (s.outstanding c t = []))
  | .isShutdown | .checkBackendQueue _ | .recvTimeout | .recvIgnored | .recvShutdown | .enqueueWriteRequest
  | .enqueueReturns _ | .sendList _ | .statusChanged _ _ _ | .finished _ _ _ _ | .enqueueWriteReply _ | .doShutdown
  | .testEnqueue _ _ _ => isTrue trivial

theorem traffic_logged (s : State) (c c' : ClientId) (t t' : UInt32) (x : Traffic) :
    (s.logged c' t' x).traffic c t = if c' = c ∧ t' = t then s.traffic c t ++ [x] else s.traffic c t := by
  unfold State.traffic State.logged
  rw [List.filter_append, List.map_append]
  by_cases h : c' = c ∧ t' = t
  · simp [Event.isFor, h]
  · have : (c' == c && t' == t) = false := by simpa using h
    simp [Event.isFor, this, h]

theorem traffic_logged_self (s : State) (c : ClientId) (t : UInt32) (x : Traffic) :
    (s.logged c t x).traffic c t = s.traffic c t ++ [x] := by
  rw [traffic_logged, if_pos ⟨rfl, rfl⟩]

@[simp] theorem outstanding_logged (s : State) (c c' : ClientId) (t t' : UInt32) (x : Traffic) :
    (s.logged c' t' x).outstanding c t = s.outstanding c t := rfl

@[simp] theorem pc_logged (s : State) (c' : ClientId) (t' : UInt32) (x : Traffic) : (s.logged c' t' x).pc = s.pc := rfl

theorem send_of_not_failed {s : State} {c : ClientId} {t : UInt32} {x : Content} {ok : Bool}
    (h : (s.send c t x ok).sendFailed = false) : s.send c t x ok = s.logged c t (.message x) := by
  unfold State.send at h ⊢
  cases ok with
  | true => rfl
  | false => simp at h

section
variable (formatFilename : AssembledChunk → String → String)

def WriteJob.keys (job : WriteJob) : List Key :=
  job.submitted ++ job.todo.map (fun k => (job.writeRequest formatFilename k).key)

/-- The server is where the automaton is: writing out the chunks of a request, or owing what it still waits for. -/
def State.Agrees (s : State) (c : ClientId) (t : UInt32) : Stage → Prop
  | .listing ks    => ∃ job, s.pc.job c t = some job ∧ job.keys formatFilename = ks ∧
      (s.outstanding c t).Perm job.submitted
  | .replying rest => s.pc.job c t = none ∧ rest.Perm (s.outstanding c t)
  | .asked         => False

/-- **The refinement**, for one client and one token. -/
def State.Serves (s : State) (c : ClientId) (t : UInt32) : Prop :=
  ∃ st, run Stage.next (.replying []) (s.traffic c t) = some st ∧ s.Agrees formatFilename c t st

/-- The refinement for every client and token, as long as the sends succeed. -/
def Inv (s : State) : Prop := s.sendFailed = false → ∀ c t, s.Serves formatFilename c t

variable {formatFilename}

theorem serves_of_same {s s' : State} {c : ClientId} {t : UInt32} (h : s.Serves formatFilename c t)
    (htr : s'.traffic c t = s.traffic c t) (hjob : s'.pc.job c t = s.pc.job c t)
    (hout : (s'.outstanding c t).Perm (s.outstanding c t)) : s'.Serves formatFilename c t := by
  obtain ⟨st, hrun, hag⟩ := h
  refine ⟨st, by rw [htr]; exact hrun, ?_⟩
  cases st with
  | listing ks =>
    obtain ⟨job, hj, hk, hp⟩ := hag
    exact ⟨job, by rw [hjob]; exact hj, hk, hout.trans hp⟩
  | replying rest => exact ⟨by rw [hjob]; exact hag.1, hag.2.trans hout.symm⟩
  | asked => exact hag

theorem serves_of_next {s s' : State} {c : ClientId} {t : UInt32} {x : Traffic} {st : Stage} (st' : Stage)
    (hrun : run Stage.next (.replying []) (s.traffic c t) = some st) (htr : s'.traffic c t = s.traffic c t ++ [x])
    (hnext : st.next x = some st') (hag : s'.Agrees formatFilename c t st') : s'.Serves formatFilename c t := by
  refine ⟨st', ?_, hag⟩
  rw [htr, run_append_eq_some]
  exact ⟨st, hrun, by simp [run, hnext]⟩

/-- Where the server is not writing for this client and token, the automaton waits for replies only. -/
theorem replying_of_serves {s : State} {c : ClientId} {t : UInt32} (h : s.Serves formatFilename c t)
    (hjob : s.pc.job c t = none) :
    ∃ rest, run Stage.next (.replying []) (s.traffic c t) = some (.replying rest) ∧ rest.Perm (s.outstanding c t) := by
  obtain ⟨st, hrun, hag⟩ := h
  cases st with
  | listing ks =>
    obtain ⟨job, hj, -⟩ := hag
    rw [hjob] at hj; cases hj
  | replying rest => exact ⟨rest, hrun, hag.2⟩
  | asked => exact hag.elim

theorem serves_other {s s' : State} {c : ClientId} {t : UInt32} (x : Content) {c' : ClientId} {t' : UInt32}
    (h : s.Serves formatFilename c' t') (hpc : s.pc = .receiving) (hpc' : s'.pc = .top)
    (hfresh : s.outstanding c t = []) (hout : ∀ c t, s'.outstanding c t = s.outstanding c t)
    (hlog : s'.log = s.log ++ [⟨c, t, .otherRequest⟩, ⟨c, t, .message x⟩])
    (hx : Stage.asked.next (.message x) = some (.replying [])) : s'.Serves formatFilename c' t' := by
  have hjob : s.pc.job c' t' = none := by rw [hpc]; rfl
  have hjob' : s'.pc.job c' t' = none := by rw [hpc']; rfl
  by_cases hct : c = c' ∧ t = t'
  · obtain ⟨rfl, rfl⟩ := hct
    obtain ⟨rest, hrun, hperm⟩ := replying_of_serves h hjob
    rw [hfresh, List.perm_nil] at hperm
    subst hperm
    have htr : s'.traffic c t = s.traffic c t ++ [.otherRequest, .message x] := by
      simp [State.traffic, hlog, Event.isFor]
    refine ⟨.replying [], ?_, hjob', by rw [hout, hfresh]⟩
    rw [htr, run_append_eq_some]
    exact ⟨_, hrun, (run_cons_eq_some _ _ _ _ _).2 ⟨.asked, rfl, by simp [run, hx]⟩⟩
  · have hne : (c == c' && t == t') = false := by simpa using hct
    have htr : s'.traffic c' t' = s.traffic c' t' := by simp [State.traffic, hlog, Event.isFor, hne]
    exact serves_of_same h htr (hjob'.trans hjob.symm) (by rw [hout])

/-! ## The steps -/

theorem job_set_writing (c : ClientId) (t : UInt32) (job : WriteJob) :
    Pc.job c t (.writing job) = if job.client = c ∧ job.token = t then some job else none := rfl

theorem agrees_writing {s : State} {job : WriteJob} {st : Stage} (hpc : s.pc = .writing job)
    (h : s.Agrees formatFilename job.client job.token st) : ∃ ks, st = .listing ks ∧ job.keys formatFilename = ks ∧
      (s.outstanding job.client job.token).Perm job.submitted := by
  have hself : s.pc.job job.client job.token = some job := by rw [hpc, job_set_writing, if_pos ⟨rfl, rfl⟩]
  cases st with
  | listing ks =>
    obtain ⟨j, hj, hk, hp⟩ := h
    obtain rfl : job = j := Option.some.inj (hself.symm.trans hj)
    exact ⟨ks, rfl, hk, hp⟩
  | replying rest => exact absurd (hself.symm.trans h.1) (Option.some_ne_none job)
  | asked => exact h.elim

/-- A drained entry that nobody awaits owes nobody a reply. -/
theorem outstanding_drop (s : State) (e : Entry) (q : List Entry) (hq : s.queue = e :: q) (he : e.client = none)
    (c : ClientId) (t : UInt32) : ({ s with queue := q } : State).outstanding c t = s.outstanding c t := by
  simp [State.outstanding, hq, Entry.isFor, he]

/-- The replies owed to a client by the writes in flight, one of them put first. -/
theorem inflight_keys_perm (l : List Pending) (i : Nat) (p : Pending) (hi : l[i]? = some p) (c : ClientId) (t : UInt32) :
    ((l.filter (Pending.isFor c t)).map (·.req.key)).Perm
      (((p :: l.eraseIdx i).filter (Pending.isFor c t)).map (·.req.key)) := by
  obtain ⟨hlt, rfl⟩ := List.getElem?_eq_some_iff.1 hi
  exact (((List.getElem_cons_eraseIdx_perm hlt).filter _).map _).symm

/-- `status_changed` moves the reply of its write from the writes in flight to the queue. -/
theorem outstanding_move (s s' : State) (i : Nat) (p : Pending) (e : Entry) (hi : s.inflight[i]? = some p)
    (hq : s'.queue = s.queue ++ [e]) (hf : s'.inflight = s.inflight.eraseIdx i) (hc : e.client = p.req.client)
    (ht : e.token = p.req.token) (hk : e.reply.key = p.req.key) (c : ClientId) (t : UInt32) :
    (s'.outstanding c t).Perm (s.outstanding c t) := by
  unfold State.outstanding
  rw [hq, hf, List.filter_append, List.map_append, List.append_assoc]
  refine List.Perm.append_left _ (List.Perm.trans ?_ (inflight_keys_perm _ i p hi c t).symm)
  have hfor : Entry.isFor c t e = Pending.isFor c t p := by simp [Entry.isFor, Pending.isFor, hc, ht]
  rw [List.filter_cons]
  by_cases h : Pending.isFor c t p = true
  · simp [hfor, h, hk]
  · have hn : Pending.isFor c t p = false := by simpa using h
    simp [hfor, hn]

theorem outstanding_set (s s' : State) (i : Nat) (w : L1WriteRequest) (r r' : Option (Bool × String))
    (hi : s.inflight[i]? = some ⟨w, r⟩) (hq : s'.queue = s.queue) (hf : s'.inflight = s.inflight.set i ⟨w, r'⟩)
    (c : ClientId) (t : UInt32) : (s'.outstanding c t).Perm (s.outstanding c t) := by
  have hlt : i < s.inflight.length := (List.getElem?_eq_some_iff.1 hi).1
  unfold State.outstanding
  rw [hq, hf]
  refine List.Perm.append_left _ (List.Perm.trans ?_ (inflight_keys_perm _ i _ hi c t).symm)
  refine (((List.set_perm_cons_eraseIdx hlt _).filter _).map _).trans ?_
  rw [List.filter_cons, List.filter_cons]
  have : Pending.isFor c t ⟨w, r'⟩ = Pending.isFor c t ⟨w, r⟩ := rfl
  rw [this]
  split <;> exact List.Perm.refl _

theorem serves_forward (s s' : State) (e : Entry) (q : List Entry) (c : ClientId) (hpc : s.pc = .draining)
    (hq : s.queue = e :: q) (he : e.client = some c)
    (hs' : s' = ({ s with queue := q } : State).logged c e.token (.message (.written e.reply)))
    (c' : ClientId) (t' : UInt32) (h : s.Serves formatFilename c' t') : s'.Serves formatFilename c' t' := by
  subst hs'
  have hjob : s.pc.job c' t' = none := by rw [hpc]; rfl
  obtain ⟨rest, hrun, hperm⟩ := replying_of_serves h hjob
  by_cases hct : c = c' ∧ e.token = t'
  · obtain ⟨rfl, rfl⟩ := hct
    have hout : s.outstanding c e.token = e.reply.key :: ({ s with queue := q } : State).outstanding c e.token := by
      simp [State.outstanding, hq, Entry.isFor, he]
    rw [hout] at hperm
    have hmem : e.reply.key ∈ rest := hperm.symm.subset List.mem_cons_self
    refine serves_of_next (.replying (rest.erase e.reply.key)) hrun (traffic_logged_self _ _ _ _) ?_
      ⟨hjob, ?_⟩
    · simp [Stage.next, hmem]
    · have := hperm.erase e.reply.key
      rwa [List.erase_cons_head] at this
  · have hfor : Entry.isFor c' t' e = false := by simpa [Entry.isFor, he] using hct
    refine serves_of_same h (by rw [traffic_logged, if_neg hct]; rfl) rfl ?_
    rw [outstanding_logged]
    simp [State.outstanding, hq, hfor]

theorem serves_begin (s s' : State) (job : WriteJob) (hpc : s.pc = .receiving) (hnew : job.submitted = [])
    (hfresh : s.outstanding job.client job.token = [])
    (hs' : s' = ({ s with pc := .writing job } : State).logged job.client job.token
      (.writeChunks (job.keys formatFilename)))
    (c : ClientId) (t : UInt32) (h : s.Serves formatFilename c t) : s'.Serves formatFilename c t := by
  subst hs'
  have hjob : s.pc.job c t = none := by rw [hpc]; rfl
  by_cases hct : job.client = c ∧ job.token = t
  · obtain ⟨rest, hrun, hperm⟩ := replying_of_serves h hjob
    obtain ⟨rfl, rfl⟩ := hct
    rw [hfresh, List.perm_nil] at hperm
    subst hperm
    refine serves_of_next (.listing (job.keys formatFilename)) hrun (traffic_logged_self _ _ _ _) rfl ?_
    exact ⟨job, by simp [job_set_writing], rfl, by rw [outstanding_logged, hnew]; exact hfresh ▸ List.Perm.refl _⟩
  · refine serves_of_same h (by rw [traffic_logged, if_neg hct]; rfl) ?_ (by rw [outstanding_logged]; rfl)
    rw [pc_logged, job_set_writing, if_neg hct, hjob]

/-- A turn of the loop over the chunks: what is listed stays the same, and what is submitted is what is owed. -/
theorem serves_job (s s' : State) (job job' : WriteJob) (hpc : s.pc = .writing job) (hpc' : s'.pc = .writing job')
    (hc : job'.client = job.client) (ht : job'.token = job.token)
    (hkeys : job'.keys formatFilename = job.keys formatFilename) (hlog : s'.log = s.log)
    (hown : ∀ (_ : (s.outstanding job.client job.token).Perm job.submitted),
      (s'.outstanding job.client job.token).Perm job'.submitted)
    (hother : ∀ c t, ¬ (job.client = c ∧ job.token = t) → s'.outstanding c t = s.outstanding c t)
    (c : ClientId) (t : UInt32) (h : s.Serves formatFilename c t) : s'.Serves formatFilename c t := by
  have htr : s'.traffic c t = s.traffic c t := by unfold State.traffic; rw [hlog]
  by_cases hct : job.client = c ∧ job.token = t
  · obtain ⟨rfl, rfl⟩ := hct
    obtain ⟨st, hrun, hag⟩ := h
    obtain ⟨ks, rfl, hk, hp⟩ := agrees_writing hpc hag
    refine ⟨.listing ks, by rw [htr]; exact hrun, job', ?_, hkeys.trans hk, hown hp⟩
    rw [hpc', job_set_writing, if_pos ⟨hc, ht⟩]
  · refine serves_of_same h htr ?_ (by rw [hother c t hct])
    rw [hpc, hpc', job_set_writing, job_set_writing, if_neg hct, if_neg (by rw [hc, ht]; exact hct)]

theorem serves_list (s s' : State) (job : WriteJob) (hpc : s.pc = .writing job) (htodo : job.todo = [])
    (hcur : job.current = none)
    (hs' : s' = ({ s with pc := .top } : State).logged job.client job.token (.message (.chunkList job.reply)))
    (c : ClientId) (t : UInt32) (h : s.Serves formatFilename c t) : s'.Serves formatFilename c t := by
  subst hs'
  by_cases hct : job.client = c ∧ job.token = t
  · obtain ⟨rfl, rfl⟩ := hct
    obtain ⟨st, hrun, hag⟩ := h
    obtain ⟨ks, rfl, hk, hp⟩ := agrees_writing hpc hag
    have hsub : job.submitted = job.reply.map (·.key) := by simp [WriteJob.submitted, hcur]
    have hks : job.reply.map (·.key) = ks := by rw [← hk, WriteJob.keys, htodo, hsub]; simp
    refine serves_of_next (.replying ks) hrun (traffic_logged_self _ _ _ _) (by simp [Stage.next, hks]) ?_
    rw [hsub, hks] at hp
    exact ⟨rfl, hp.symm⟩
  · refine serves_of_same h (by rw [traffic_logged, if_neg hct]; rfl) ?_ (by rw [outstanding_logged]; rfl)
    rw [hpc, job_set_writing, if_neg hct]; rfl

theorem inv_of_same {s s' : State} (hI : Inv formatFilename s) (hfail : s'.sendFailed = s.sendFailed)
    (hlog : s'.log = s.log) (hjob : ∀ c t, s'.pc.job c t = s.pc.job c t)
    (hout : ∀ c t, (s'.outstanding c t).Perm (s.outstanding c t)) : Inv formatFilename s' := by
  intro hok c t
  exact serves_of_same (hI (hfail ▸ hok) c t) (by unfold State.traffic; rw [hlog]) (hjob c t) (hout c t)

/-- A failed send ends the promise; one that did not fail logged its message. -/
theorem inv_of_send {s s' : State} {c : ClientId} {t : UInt32} {x : Content} {ok : Bool}
    (h : s'.sendFailed = false → Inv formatFilename (s'.logged c t (.message x))) (hs : s = s'.send c t x ok) :
    Inv formatFilename s := by
  subst hs
  intro hok
  have heq := send_of_not_failed hok
  rw [heq] at hok ⊢
  exact h hok hok

theorem inv_init : Inv formatFilename .init := fun _ _ _ => ⟨.replying [], rfl, rfl, List.Perm.refl _⟩

/-- **One step keeps the refinement**, as long as the clients keep their promise. -/
theorem inv_step (s : State) (a : Action) (s' : State) (hI : Inv formatFilename s)
    (h : guard (step formatFilename) Fresh s a = some s') : Inv formatFilename s' := by
  obtain ⟨hfresh, h⟩ := guard_eq_some.1 h
  cases a with
  | isShutdown =>
    simp only [step] at h
    split at h <;> cases h
    rename_i hpc
    refine inv_of_same hI rfl rfl (fun c t => ?_) (fun _ _ => List.Perm.refl _)
    rw [hpc]
    split <;> rfl
  | checkBackendQueue ok =>
    simp only [step] at h
    split at h <;> cases h
    · rename_i hpc hq
      exact inv_of_same hI rfl rfl (fun c t => by rw [hpc]; rfl) (fun _ _ => List.Perm.refl _)
    · rename_i e q hpc hq
      unfold State.forward
      cases he : e.client with
      | none =>
        exact inv_of_same hI rfl rfl (fun _ _ => rfl) (fun c t => by rw [outstanding_drop s e q hq he])
      | some c =>
        exact inv_of_send (fun hok _ c' t' => serves_forward s _ e q c hpc hq he rfl c' t' (hI hok c' t')) rfl
  | recvTimeout =>
    simp only [step] at h
    split at h <;> cases h
    rename_i hpc
    exact inv_of_same hI rfl rfl (fun c t => by rw [hpc]; rfl) (fun _ _ => List.Perm.refl _)
  | recvIgnored =>
    simp only [step] at h
    split at h <;> cases h
    rename_i hpc
    exact inv_of_same hI rfl rfl (fun c t => by rw [hpc]; rfl) (fun _ _ => List.Perm.refl _)
  | recvShutdown =>
    simp only [step] at h
    split at h <;> cases h
    rename_i hpc
    exact inv_of_same hI rfl rfl (fun c t => by rw [hpc]; rfl) (fun _ _ => List.Perm.refl _)
  | recvStatus c t pathname ok =>
    simp only [step] at h
    split at h <;> cases h
    rename_i hpc
    refine inv_of_send (fun hok _ c' t' => ?_) rfl
    exact serves_other (.status (s.getStatus pathname).1 (s.getStatus pathname).2) (hI hok c' t') hpc rfl hfresh
      (fun _ _ => rfl) (by simp [State.logged]) rfl
  | recvOther c t packed ok =>
    simp only [step] at h
    split at h <;> cases h
    rename_i hpc
    refine inv_of_send (fun hok _ c' t' => ?_) rfl
    exact serves_other (.other packed) (hI hok c' t') hpc rfl hfresh (fun _ _ => rfl) (by simp [State.logged]) rfl
  | recvWriteChunks c t req chunks =>
    simp only [step] at h
    split at h <;> cases h
    rename_i hpc
    intro hok c' t'
    exact serves_begin s _ ⟨c, t, req, chunks, none, []⟩ hpc rfl hfresh rfl c' t' (hI hok c' t')
  | enqueueWriteRequest =>
    simp only [step] at h
    split at h <;> cases h
    rename_i c t req k todo reply hpc
    intro hok c' t'
    let w := (⟨c, t, req, todo, none, reply⟩ : WriteJob).writeRequest formatFilename k
    refine serves_job s _ ⟨c, t, req, k :: todo, none, reply⟩ ⟨c, t, req, todo, some w, reply⟩ hpc ?_ rfl rfl ?_ ?_
      ?_ ?_ c' t' (hI hok c' t')
    · rfl
    · simp [WriteJob.keys, WriteJob.submitted, WriteJob.writeRequest, w]
    · rfl
    · intro hp
      simp only [State.outstanding, WriteJob.submitted, List.filter_append, List.map_append] at hp ⊢
      simp only [Option.toList_none, List.map_nil, List.append_nil] at hp
      rw [← List.append_assoc]
      refine hp.append ?_
      simp [Pending.isFor, WriteJob.writeRequest, w]
    · intro c'' t'' hct
      have hne : (c == c'' && t == t'') = false := by simpa using hct
      simp [State.outstanding, Pending.isFor, WriteJob.writeRequest, hne]
  | enqueueReturns success =>
    simp only [step] at h
    split at h <;> cases h
    rename_i c t req todo w reply hpc
    intro hok c' t'
    refine serves_job s _ ⟨c, t, req, todo, some w, reply⟩
      ⟨c, t, req, todo, none, reply ++ [listReplyEntry w success]⟩ hpc ?_ rfl rfl ?_ ?_ ?_ ?_ c' t'
      (hI hok c' t')
    · rfl
    · simp [WriteJob.keys, WriteJob.submitted, WriteJob.writeRequest]
    · rfl
    · intro hp
      show (s.outstanding c t).Perm _
      simpa [WriteJob.submitted] using hp
    · intro _ _ _; rfl
  | sendList ok =>
    simp only [step] at h
    split at h <;> cases h
    rename_i c t req reply hpc
    exact inv_of_send (fun hok _ c' t' => serves_list s _ ⟨c, t, req, [], none, reply⟩ hpc rfl rfl rfl c' t'
      (hI hok c' t')) rfl
  | statusChanged i state err =>
    simp only [step] at h
    split at h <;> cases h
    exact inv_of_same hI rfl rfl (fun _ _ => rfl) (fun _ _ => List.Perm.refl _)
  | finished i success state err =>
    simp only [step] at h
    split at h <;> cases h
    rename_i w hi
    exact inv_of_same hI rfl rfl (fun _ _ => rfl) (outstanding_set s _ i w none _ hi rfl rfl)
  | enqueueWriteReply i =>
    simp only [step] at h
    split at h <;> cases h
    rename_i w success err hi
    exact inv_of_same hI rfl rfl (fun _ _ => rfl) (outstanding_move s _ i _ _ hi rfl rfl rfl rfl rfl)
  | doShutdown =>
    simp only [step] at h
    cases h
    exact inv_of_same hI rfl rfl (fun _ _ => rfl) (fun _ _ => List.Perm.refl _)
  | testEnqueue chunk filename priority =>
    simp only [step] at h
    cases h
    refine inv_of_same hI rfl rfl (fun _ _ => rfl) (fun c t => ?_)
    simp [State.outstanding, Pending.isFor]

end

/-! ## Whole runs -/

/-- **What a client hears.**  In every run of the server, its I/O threads and clients that use a token again only when
nothing is outstanding under it, as long as the sends succeed: the traffic under a token is a word of the protocol; and
after a `write_chunks` request for the chunks `ks` the client is told nothing before its loop is done, then first the
list of exactly `ks`, and then one reply for each of `ks` whose write is reported, each once and nothing else, all of
them before the token is used again. -/
theorem write_chunks_replies (formatFilename : AssembledChunk → String → String) (as : List Action) (s : State)
    (hrun : run (guard (step formatFilename) Fresh) .init as = some s) (hsend : s.sendFailed = false)
    (c : ClientId) (t : UInt32) :
    (run Stage.next (.replying []) (s.traffic c t)).isSome ∧
    ∀ (pre post : List Traffic) (ks : List Key), s.traffic c t = pre ++ .writeChunks ks :: post →
      (post = [] ∧ ∃ job, s.pc = .writing job ∧ job.client = c ∧ job.token = t) ∨
      ∃ (rs ws : List WriteChunksReply) (left : List Key),
        post.takeWhile Traffic.isMessage = .message (.chunkList rs) :: ws.map (fun r => .message (.written r)) ∧
        rs.map (·.key) = ks ∧ (ws.map (·.key) ++ left).Perm ks ∧
        (post.dropWhile Traffic.isMessage = [] → left.Perm (s.outstanding c t)) ∧
        (post.dropWhile Traffic.isMessage ≠ [] → left = []) := by
  have hI : Inv formatFilename s := run_invariant _ _ inv_step as .init s inv_init hrun
  obtain ⟨st, hst, hag⟩ := hI hsend c t
  refine ⟨by rw [hst]; rfl, fun pre post ks htr => ?_⟩
  rw [htr, run_append_eq_some] at hst
  obtain ⟨st₁, -, hst⟩ := hst
  obtain ⟨st₂, hreq, hst⟩ := (run_cons_eq_some _ _ _ _ _).1 hst
  have hlist : st₂ = .listing ks := by
    unfold Stage.next at hreq
    split at hreq <;> simp_all
  subst hlist
  rcases run_listing post ks st hst with ⟨hpost, rfl⟩ | ⟨rs, ws, left, hmsgs, hrs, hperm, hend, hmore⟩
  · obtain ⟨job, hjob, -⟩ := hag
    refine .inl ⟨hpost, ?_⟩
    cases hpc : s.pc with
    | writing job' =>
      rw [hpc, job_set_writing] at hjob
      split at hjob
      · rename_i hct
        exact ⟨job', rfl, hct⟩
      · cases hjob
    | top => rw [hpc] at hjob; cases hjob
    | draining => rw [hpc] at hjob; cases hjob
    | receiving => rw [hpc] at hjob; cases hjob
    | exited => rw [hpc] at hjob; cases hjob
  · refine .inr ⟨rs, ws, left, hmsgs, hrs, hperm, fun he => ?_, hmore⟩
    obtain rfl := hend he
    exact hag.2

/-- A request for two chunks: the write of the first is reported before the second is even enqueued. -/
def earlyRun : List Action :=
  [.isShutdown, .checkBackendQueue true,
    .recvWriteChunks [1] 5 ⟨"f", 0, false⟩ [⟨7, 0, 1024, 0, 1, 1⟩, ⟨7, 1024, 2048, 1, 1, 1⟩],
    .enqueueWriteRequest, .finished 0 true "SUCCEEDED" "", .enqueueWriteReply 0, .enqueueReturns true,
    .enqueueWriteRequest, .enqueueReturns true, .sendList true, .isShutdown, .checkBackendQueue true]

theorem write_chunks_replies_early :
    let s := (run (guard (step (fun _ p => p)) Fresh) .init earlyRun).get rfl
    (run Stage.next (.replying []) (s.traffic [1] 5)).isSome ∧
    ∃ (rs ws : List WriteChunksReply) (left : List Key),
      (s.traffic [1] 5).tail.takeWhile Traffic.isMessage =
        .message (.chunkList rs) :: ws.map (fun r => .message (.written r)) ∧
      rs.map (·.key) = [⟨7, 0, 1024, "f"⟩, ⟨7, 1024, 1024, "f"⟩] ∧ (ws.map (·.key) ++ left).Perm (rs.map (·.key)) := by
  intro s
  obtain ⟨h, h'⟩ := write_chunks_replies (fun _ p => p) earlyRun s (Option.some_get _).symm rfl [1] 5
  refine ⟨h, ?_⟩
  rcases h' [] (s.traffic [1] 5).tail _ rfl with ⟨hpost, -⟩ | ⟨rs, ws, left, hmsgs, hrs, hperm, -⟩
  · exact absurd hpost (by decide)
  · exact ⟨rs, ws, left, hmsgs, hrs, hrs ▸ hperm⟩

end Rpc
end FrbL1
