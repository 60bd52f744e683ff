import FrbL1.RpcServer
/-!
# RpcStatus — what `get_writechunk_status` answers

The map of the statuses against the history of a run: the writes that were asked for, and every `status_changed`.
The answer for a path is the last status of a write to that path (`status_is_last`), of any client and whatever became
of its reply.  Once a write is reported to its client the answer stays the one it finished with, where nobody else
writes that path and a write that has finished changes its status no more (`status_is_final`).
-/
namespace FrbL1
namespace Rpc

open Trans

inductive Happening
  | enqueued (filename : String)
  | changed (filename status errorMessage : String)
  | finished (filename : String) (success : Bool) (status errorMessage : String)
  deriving DecidableEq, Repr

def Happening.sets : Happening → Option (String × String × String)
  | .enqueued _                => none
  | .changed f status err      => some (f, status, err)
  | .finished f _ status err   => some (f, status, err)

/-- The last status of a write to `f`. -/
def lastStatus (f : String) (w : List Happening) : Option (String × String) :=
  ((w.filterMap Happening.sets).filter (·.1 == f)).getLast?.map (·.2)

def Happening.isEnqueued (f : String) : Happening → Bool
  | .enqueued f' => f' == f
  | _            => false

def Happening.isFinished (f : String) : Happening → Bool
  | .finished f' _ _ _ => f' == f
  | _                  => false

/-- A pending write to `f` that has not finished. -/
def Pending.isOpen (f : String) (p : Pending) : Bool := p.req.filename == f && p.result.isNone

def State.Reports (s : State) (r : WriteChunksReply) : Prop :=
  (∃ e ∈ s.queue, e.reply = r) ∨ ∃ c t, ⟨c, t, .message (.written r)⟩ ∈ s.log

section
variable (formatFilename : AssembledChunk → String → String)

def happens (s : State) : Action → List Happening
  | .enqueueWriteRequest =>
    match s.pc with
    | .writing ⟨_, _, req, k :: _, none, _⟩ => [.enqueued (formatFilename k req.filenamePattern)]
    | _                                     => []
  | .testEnqueue _ filename _         => [.enqueued filename]
  | .statusChanged i status err       => (s.inflight[i]?).toList.map (fun p => .changed p.req.filename status err)
  | .finished i success status err    =>
    (s.inflight[i]?).toList.map (fun p => .finished p.req.filename success status err)
  | _                                 => []

/-- A write that has finished changes its status no more. -/
def Quiet (s : State) : Action → Prop
  | .statusChanged i _ _ => ∀ p, s.inflight[i]? = some p → p.result = none
  | _                    => True

instance (s : State) : (a : Action) → Decidable (Quiet s a)
  | .statusChanged i _ _ => inferInstanceAs (Decidable (∀ p, s.inflight[i]? = some p → p.result = none))
  | .isShutdown | .checkBackendQueue _ | .recvTimeout | .recvIgnored | .recvShutdown | .recvStatus _ _ _ _
  | .recvOther _ _ _ _ | .recvWriteChunks _ _ _ _ | .enqueueWriteRequest | .enqueueReturns _ | .sendList _
  | .finished _ _ _ _ | .enqueueWriteReply _ | .doShutdown | .testEnqueue _ _ _ => isTrue trivial

end

section
variable {formatFilename : AssembledChunk → String → String}

theorem reports_logged {s : State} {c : ClientId} {t : UInt32} {x : Traffic} {r : WriteChunksReply}
    (h : (s.logged c t x).Reports r) : s.Reports r ∨ x = .message (.written r) := by
  rcases h with h | ⟨c', t', h⟩
  · exact .inl (.inl h)
  · rcases List.mem_append.1 h with h | h
    · exact .inl (.inr ⟨c', t', h⟩)
    · obtain ⟨-, -, hx⟩ := Event.mk.injEq .. ▸ List.mem_singleton.1 h
      exact .inr hx.symm

theorem reports_send {s : State} {c : ClientId} {t : UInt32} {x : Content} {ok : Bool} {r : WriteChunksReply}
    (h : (s.send c t x ok).Reports r) : s.Reports r ∨ x = .written r := by
  cases ok with
  | false => exact .inl h
  | true => exact (reports_logged h).imp_right Traffic.message.inj

@[simp] theorem inflight_send (s : State) (c : ClientId) (t : UInt32) (x : Content) (ok : Bool) :
    (s.send c t x ok).inflight = s.inflight := by cases ok <;> rfl
@[simp] theorem chunkStatus_send (s : State) (c : ClientId) (t : UInt32) (x : Content) (ok : Bool) :
    (s.send c t x ok).chunkStatus = s.chunkStatus := by cases ok <;> rfl

structure State.Leaves (s s' : State) : Prop where
  inflight    : s'.inflight = s.inflight
  chunkStatus : s'.chunkStatus = s.chunkStatus
  reports     : ∀ r, s'.Reports r → s.Reports r

theorem step_status {s s' : State} {a : Action} (h : step formatFilename s a = some s') :
    (∃ w : L1WriteRequest, happens formatFilename s a = [.enqueued w.filename] ∧
      s'.inflight = s.inflight ++ [⟨w, none⟩] ∧ s'.chunkStatus = s.chunkStatus ∧ ∀ r, s'.Reports r → s.Reports r) ∨
    (∃ (i : Nat) (p : Pending) (status err : String), s.inflight[i]? = some p ∧
      happens formatFilename s a = [.changed p.req.filename status err] ∧
      (Quiet s a → p.result = none) ∧ s'.inflight = s.inflight ∧
      s'.chunkStatus = (s.setStatus p.req.filename status err).chunkStatus ∧ ∀ r, s'.Reports r → s.Reports r) ∨
    (∃ i w success status err, s.inflight[i]? = some ⟨w, none⟩ ∧
      happens formatFilename s a = [.finished w.filename success status err] ∧
      s'.inflight = s.inflight.set i ⟨w, some (success, err)⟩ ∧
      s'.chunkStatus = (s.setStatus w.filename status err).chunkStatus ∧ ∀ r, s'.Reports r → s.Reports r) ∨
    (∃ i w success err, s.inflight[i]? = some ⟨w, some (success, err)⟩ ∧ happens formatFilename s a = [] ∧
      s'.inflight = s.inflight.eraseIdx i ∧ s'.chunkStatus = s.chunkStatus ∧
      ∀ r, s'.Reports r → s.Reports r ∨ r = statusChangedReply w success err) ∨
    (happens formatFilename s a = [] ∧ s.Leaves s') := by
  cases a with
  | isShutdown =>
    simp only [step] at h
    split at h <;> cases h
    exact .inr (.inr (.inr (.inr ⟨rfl, rfl, rfl, fun _ h => h⟩)))
  | checkBackendQueue ok =>
    refine .inr (.inr (.inr (.inr ⟨rfl, ?_⟩)))
    simp only [step] at h
    split at h <;> cases h
    · exact ⟨rfl, rfl, fun _ h => h⟩
    · rename_i e q hpc hq
      have hmem : ∀ r, ({ s with queue := q } : State).Reports r → s.Reports r := by
        rintro r (⟨e', he', hr⟩ | hlog)
        · exact .inl ⟨e', hq ▸ .tail _ he', hr⟩
        · exact .inr hlog
      unfold State.forward
      cases e.client with
      | none => exact ⟨rfl, rfl, hmem⟩
      | some c =>
        refine ⟨by simp, by simp, fun r hr => ?_⟩
        rcases reports_send hr with hr | hr
        · exact hmem r hr
        · exact .inl ⟨e, hq ▸ .head _, Content.written.inj hr⟩
  | recvTimeout =>
    simp only [step] at h
    split at h <;> cases h
    exact .inr (.inr (.inr (.inr ⟨rfl, rfl, rfl, fun _ h => h⟩)))
  | recvIgnored =>
    simp only [step] at h
    split at h <;> cases h
    exact .inr (.inr (.inr (.inr ⟨rfl, rfl, rfl, fun _ h => h⟩)))
  | recvShutdown =>
    simp only [step] at h
    split at h <;> cases h
    exact .inr (.inr (.inr (.inr ⟨rfl, rfl, rfl, fun _ h => h⟩)))
  | recvStatus c t pathname ok =>
    simp only [step] at h
    split at h <;> cases h
    refine .inr (.inr (.inr (.inr ⟨rfl, by simp [State.logged], by simp [State.logged], fun r hr => ?_⟩)))
    exact ((reports_logged ((reports_send hr).resolve_right (by simp))).resolve_right (by simp))
  | recvOther c t packed ok =>
    simp only [step] at h
    split at h <;> cases h
    refine .inr (.inr (.inr (.inr ⟨rfl, by simp [State.logged], by simp [State.logged], fun r hr => ?_⟩)))
    exact ((reports_logged ((reports_send hr).resolve_right (by simp))).resolve_right (by simp))
  | recvWriteChunks c t req chunks =>
    simp only [step] at h
    split at h <;> cases h
    exact .inr (.inr (.inr (.inr ⟨rfl, rfl, rfl, fun r hr => (reports_logged hr).resolve_right (by simp)⟩)))
  | enqueueWriteRequest =>
    simp only [step] at h
    split at h <;> cases h
    rename_i c t req k todo reply hpc
    refine .inl ⟨_, ?_, rfl, rfl, fun _ h => h⟩
    simp [happens, hpc, WriteJob.writeRequest]
  | enqueueReturns success =>
    simp only [step] at h
    split at h <;> cases h
    exact .inr (.inr (.inr (.inr ⟨rfl, rfl, rfl, fun _ h => h⟩)))
  | sendList ok =>
    simp only [step] at h
    split at h <;> cases h
    refine .inr (.inr (.inr (.inr ⟨rfl, by simp, by simp, fun r hr => ?_⟩)))
    exact (reports_send hr).resolve_right (by simp)
  | statusChanged i status err =>
    simp only [step] at h
    split at h <;> cases h
    rename_i p hi
    exact .inr (.inl ⟨i, p, status, err, hi, by simp [happens, hi], fun hq => hq p hi, rfl, rfl, fun _ h => h⟩)
  | finished i success status err =>
    simp only [step] at h
    split at h <;> cases h
    rename_i w hi
    exact .inr (.inr (.inl ⟨i, w, success, status, err, hi, by simp [happens, hi], rfl, rfl, fun _ h => h⟩))
  | enqueueWriteReply i =>
    simp only [step] at h
    split at h <;> cases h
    rename_i w success err hi
    refine .inr (.inr (.inr (.inl ⟨i, w, success, err, hi, rfl, rfl, rfl, ?_⟩)))
    rintro r (⟨e, he, hr⟩ | hlog)
    · rcases List.mem_append.1 he with he | he
      · exact .inl (.inl ⟨e, he, hr⟩)
      · obtain rfl := List.mem_singleton.1 he
        exact .inr hr.symm
    · exact .inl (.inr hlog)
  | doShutdown =>
    simp only [step] at h
    cases h
    exact .inr (.inr (.inr (.inr ⟨rfl, rfl, rfl, fun _ h => h⟩)))
  | testEnqueue chunk filename priority =>
    simp only [step] at h
    cases h
    exact .inl ⟨_, rfl, rfl, rfl, fun _ h => h⟩

/-! ## The last status -/

theorem lastStatus_append (f : String) (w : List Happening) (x : Happening) :
    lastStatus f (w ++ [x]) = if x.sets.any (·.1 == f) then x.sets.map (·.2) else lastStatus f w := by
  unfold lastStatus
  cases hx : x.sets with
  | none => simp [hx]
  | some y =>
    by_cases hy : y.1 = f
    · simp [hx, hy]
    · simp [hx, hy]

def State.Records (s : State) (w : List Happening) : Prop := ∀ f, s.chunkStatus f = lastStatus f w

theorem records_set {s s' : State} {w : List Happening} {x : Happening} {g status err : String} (hI : s.Records w)
    (hx : x.sets = some (g, status, err)) (hs : s'.chunkStatus = (s.setStatus g status err).chunkStatus) :
    s'.Records (w ++ [x]) := by
  intro f
  rw [lastStatus_append, hx, hs]
  by_cases hf : f = g
  · simp [State.setStatus, hf]
  · simp [State.setStatus, hf, Ne.symm hf, hI f]

theorem records_same {s s' : State} {w : List Happening} (hI : s.Records w) (hs : s'.chunkStatus = s.chunkStatus) :
    s'.Records w := fun f => by rw [hs, hI f]

theorem records_step (s : State) (w : List Happening) (a : Action) (s' : State) (hI : s.Records w)
    (h : step formatFilename s a = some s') : s'.Records (w ++ happens formatFilename s a) := by
  rcases step_status h with ⟨q, hw, -, hs, -⟩ | ⟨i, p, st, err, -, hw, -, -, hs, -⟩ |
    ⟨i, q, b, st, err, -, hw, -, hs, -⟩ | ⟨i, q, b, err, -, hw, -, hs, -⟩ | ⟨hw, hs⟩
  · rw [hw]
    intro f
    rw [lastStatus_append, hs, hI f]
    rfl
  · rw [hw]
    exact records_set hI rfl hs
  · rw [hw]
    exact records_set hI rfl hs
  · rw [hw, List.append_nil]
    exact records_same hI hs
  · rw [hw, List.append_nil]
    exact records_same hI hs.chunkStatus

/-! ## What a report says -/

/-- What is about to be reported, and what was reported, has happened. -/
structure State.Truthful (s : State) (w : List Happening) : Prop where
  pending : ∀ p ∈ s.inflight, ∀ success err, p.result = some (success, err) →
    ∃ status, .finished p.req.filename success status err ∈ w
  reports : ∀ r, s.Reports r → ∃ status, .finished r.filename r.success status r.errorMessage ∈ w

theorem State.Truthful.mono {s s' : State} {w v : List Happening} (hI : s.Truthful w)
    (hp : ∀ p ∈ s'.inflight, p ∈ s.inflight ∨ p.result = none) (hr : ∀ r, s'.Reports r → s.Reports r) :
    s'.Truthful (w ++ v) := by
  refine ⟨fun p hmem success err hres => ?_, fun r h => ?_⟩
  · obtain ⟨status, h⟩ := hI.pending p ((hp p hmem).resolve_right (by simp [hres])) success err hres
    exact ⟨status, List.mem_append_left _ h⟩
  · obtain ⟨status, h⟩ := hI.reports r (hr r h)
    exact ⟨status, List.mem_append_left _ h⟩

theorem truthful_step (s : State) (w : List Happening) (a : Action) (s' : State) (hI : s.Truthful w)
    (h : step formatFilename s a = some s') : s'.Truthful (w ++ happens formatFilename s a) := by
  rcases step_status h with ⟨q, hw, hp, -, hr⟩ | ⟨i, p, st, err, hi, hw, -, hp, -, hr⟩ |
    ⟨i, q, b, st, err, hi, hw, hp, -, hr⟩ | ⟨i, q, b, err, hi, hw, hp, -, hr⟩ | ⟨hw, hs⟩
  · refine hI.mono (fun p hmem => ?_) hr
    rw [hp] at hmem
    rcases List.mem_append.1 hmem with hmem | hmem
    · exact .inl hmem
    · exact .inr (List.mem_singleton.1 hmem ▸ rfl)
  · exact hI.mono (fun p hmem => .inl (hp ▸ hmem)) hr
  · refine ⟨fun p hmem success err' hres => ?_, fun r hrep => ?_⟩
    · rw [hp] at hmem
      rcases List.mem_or_eq_of_mem_set hmem with hmem | rfl
      · obtain ⟨status, h⟩ := hI.pending p hmem success err' hres
        exact ⟨status, List.mem_append_left _ h⟩
      · obtain ⟨rfl, rfl⟩ := Prod.mk.inj (Option.some.inj hres)
        exact ⟨st, by simp [hw]⟩
    · obtain ⟨status, h⟩ := hI.reports r (hr r hrep)
      exact ⟨status, List.mem_append_left _ h⟩
  · rw [hw, List.append_nil]
    refine ⟨fun p hmem => hI.pending p (List.mem_of_mem_eraseIdx (hp ▸ hmem)), fun r hrep => ?_⟩
    rcases hr r hrep with h | rfl
    · exact hI.reports r h
    · exact hI.pending _ (List.mem_of_getElem? hi) b err rfl
  · exact hI.mono (fun p hmem => .inl (hs.inflight ▸ hmem)) hs.reports

/-! ## Each write finishes once -/

/-- Of the writes to `f` that were asked for each is open, or has finished. -/
def State.Accounts (s : State) (f : String) (w : List Happening) : Prop :=
  s.inflight.countP (Pending.isOpen f) + w.countP (Happening.isFinished f) = w.countP (Happening.isEnqueued f)

theorem countP_set {α : Type} (P : α → Bool) : ∀ (l : List α) (i : Nat) (x y : α), l[i]? = some x →
    (l.set i y).countP P + (if P x then 1 else 0) = l.countP P + (if P y then 1 else 0)
  | z :: l, 0,     x, y, h => by
    obtain rfl : z = x := by simpa using h
    simp only [List.set_cons_zero, List.countP_cons]
    omega
  | z :: l, i + 1, x, y, h => by
    have ih := countP_set P l i x y (by simpa using h)
    simp only [List.set_cons_succ, List.countP_cons]
    omega

theorem countP_eraseIdx {α : Type} (P : α → Bool) : ∀ (l : List α) (i : Nat) (x : α), l[i]? = some x →
    (l.eraseIdx i).countP P + (if P x then 1 else 0) = l.countP P
  | z :: l, 0,     x, h => by
    obtain rfl : z = x := by simpa using h
    simp only [List.eraseIdx_cons_zero, List.countP_cons]
  | z :: l, i + 1, x, h => by
    have ih := countP_eraseIdx P l i x (by simpa using h)
    simp only [List.eraseIdx_cons_succ, List.countP_cons]
    omega

theorem accounts_step (f : String) (s : State) (w : List Happening) (a : Action) (s' : State) (hI : s.Accounts f w)
    (h : step formatFilename s a = some s') : s'.Accounts f (w ++ happens formatFilename s a) := by
  unfold State.Accounts at hI ⊢
  rcases step_status h with ⟨q, hw, hp, -, -⟩ | ⟨i, p, st, err, hi, hw, -, hp, -, -⟩ |
    ⟨i, q, b, st, err, hi, hw, hp, -, -⟩ | ⟨i, q, b, err, hi, hw, hp, -, -⟩ | ⟨hw, hs⟩
  · rw [hw, hp]
    cases hf : q.filename == f <;>
      simp only [List.countP_append, List.countP_singleton, Pending.isOpen, Happening.isFinished, Happening.isEnqueued,
        Option.isNone_none, hf, Bool.and_true, Bool.false_eq_true, if_false, if_true] <;>
      omega
  · rw [hw, hp]
    simp only [List.countP_append, List.countP_singleton, Happening.isFinished, Happening.isEnqueued,
      Bool.false_eq_true, if_false]
    omega
  · have hset := countP_set (Pending.isOpen f) s.inflight i ⟨q, none⟩ ⟨q, some (b, err)⟩ hi
    rw [hw, hp]
    cases hf : q.filename == f <;>
      simp only [List.countP_append, List.countP_singleton, Pending.isOpen, Happening.isFinished, Happening.isEnqueued,
        Option.isNone_none, Option.isNone_some, hf, Bool.and_true, Bool.and_false, Bool.false_eq_true, if_false,
        if_true] at hset ⊢ <;>
      omega
  · have hset := countP_eraseIdx (Pending.isOpen f) s.inflight i _ hi
    rw [hw, hp, List.append_nil]
    simp only [Pending.isOpen, Option.isNone_some, Bool.and_false, Bool.false_eq_true, if_false] at hset
    omega
  · rw [hw, hs.inflight, List.append_nil]
    exact hI

/-- Where one write to `f` was asked for, the status it finished with is the last one. -/
def Settled (f : String) (w : List Happening) : Prop :=
  w.countP (Happening.isEnqueued f) ≤ 1 → ∀ success status err, .finished f success status err ∈ w →
    lastStatus f w = some (status, err)

theorem isFinished_pos {f : String} {w : List Happening} {success : Bool} {status err : String}
    (h : .finished f success status err ∈ w) : 0 < w.countP (Happening.isFinished f) :=
  List.countP_pos_iff.2 ⟨_, h, by simp [Happening.isFinished]⟩

/-- While a write to `f` is open no other has finished, if one was asked for. -/
theorem open_of_once {s : State} {f : String} {w : List Happening} (hI : s.Accounts f w)
    (honce : w.countP (Happening.isEnqueued f) ≤ 1) {i : Nat} {p : Pending} (hi : s.inflight[i]? = some p)
    (hp : p.isOpen f) {success : Bool} {status err : String} : .finished f success status err ∉ w := by
  intro h
  have hfin := isFinished_pos h
  have hopen : 0 < s.inflight.countP (Pending.isOpen f) := List.countP_pos_iff.2 ⟨p, List.mem_of_getElem? hi, hp⟩
  unfold State.Accounts at hI
  omega

theorem settled_step (f : String) (s : State) (w : List Happening) (a : Action) (s' : State)
    (hI : s.Accounts f w ∧ Settled f w) (h : guard (step formatFilename) Quiet s a = some s') :
    s'.Accounts f (w ++ happens formatFilename s a) ∧ Settled f (w ++ happens formatFilename s a) := by
  obtain ⟨hacc, hset⟩ := hI
  obtain ⟨hquiet, h⟩ := guard_eq_some.1 h
  refine ⟨accounts_step f s w a s' hacc h, ?_⟩
  intro honce success status err hmem
  have hbefore : w.countP (Happening.isEnqueued f) ≤ 1 := by
    rw [List.countP_append] at honce
    omega
  rcases step_status h with ⟨q, hw, -, -, -⟩ | ⟨i, p, st, err', hi, hw, hnone, -, -, -⟩ |
    ⟨i, q, b, st, err', hi, hw, -, -, -⟩ | ⟨i, q, b, err', -, hw, -, -, -⟩ | ⟨hw, -⟩
  · rw [hw] at hmem ⊢
    rw [lastStatus_append]
    refine hset hbefore success status err ((List.mem_append.1 hmem).resolve_right ?_)
    simp
  · -- a change of another path: the write to `f` would be open
    rw [hw] at hmem ⊢
    have hmem : .finished f success status err ∈ w := (List.mem_append.1 hmem).resolve_right (by simp)
    have hne : ¬ p.req.filename = f := by
      intro hf
      exact open_of_once hacc hbefore hi (by simp [Pending.isOpen, hf, hnone hquiet]) hmem
    rw [lastStatus_append, if_neg (by simpa [Happening.sets] using hne)]
    exact hset hbefore success status err hmem
  · rw [hw] at hmem ⊢
    rw [lastStatus_append]
    rcases List.mem_append.1 hmem with hmem | hmem
    · have hne : ¬ q.filename = f := by
        intro hf
        exact open_of_once hacc hbefore hi (by simp [Pending.isOpen, hf]) hmem
      rw [if_neg (by simpa [Happening.sets] using hne)]
      exact hset hbefore success status err hmem
    · obtain ⟨rfl, rfl, rfl, rfl⟩ := Happening.finished.inj (List.mem_singleton.1 hmem)
      rw [if_pos (by simp [Happening.sets])]
      rfl
  · rw [hw, List.append_nil] at hmem ⊢
    exact hset hbefore success status err hmem
  · rw [hw, List.append_nil] at hmem ⊢
    exact hset hbefore success status err hmem

/-! ## Whole runs -/

def history (formatFilename : AssembledChunk → String → String) (as : List Action) : List Happening :=
  shown (step formatFilename) (happens formatFilename) .init as

theorem records_run {as : List Action} {s : State} (h : run (step formatFilename) .init as = some s) :
    s.Records (history formatFilename as) :=
  run_shown_invariant _ _ State.Records records_step as .init s [] (fun _ => rfl) h

theorem truthful_run {as : List Action} {s : State} (h : run (step formatFilename) .init as = some s) :
    s.Truthful (history formatFilename as) := by
  refine run_shown_invariant _ _ State.Truthful truthful_step as .init s [] ⟨fun p hp => ?_, fun r hr => ?_⟩ h
  · simp [State.init] at hp
  · rcases hr with ⟨e, he, -⟩ | ⟨c, t, hlog⟩
    · simp [State.init] at he
    · simp [State.init] at hlog

theorem settled_run (f : String) {as : List Action} {s : State}
    (h : run (guard (step formatFilename) Quiet) .init as = some s) : Settled f (history formatFilename as) := by
  have hrun := run_shown_invariant _ (happens formatFilename) (fun s w => s.Accounts f w ∧ Settled f w)
    (settled_step f) as .init s [] ⟨rfl, fun _ _ _ _ hmem => nomatch hmem⟩ h
  rw [List.nil_append, shown_guard _ _ _ as _ _ h] at hrun
  exact hrun.2

theorem log_of_recvStatus {s s' : State} {c : ClientId} {t : UInt32} {path : String}
    (h : step formatFilename s (.recvStatus c t path true) = some s') :
    s'.log = s.log ++ [⟨c, t, .otherRequest⟩, ⟨c, t, .message (.status (s.getStatus path).1 (s.getStatus path).2)⟩] := by
  simp only [step] at h
  split at h <;> cases h
  simp [State.send, State.logged]

end

/-- **What `get_writechunk_status` answers**: in every run the last status that was set for a write to that path, by
whomever the write was asked for, and `UNKNOWN` where there is none.  For a path of which a client was told that it is
written there is one: it finished, with the reported success and error message. -/
theorem status_is_last (formatFilename : AssembledChunk → String → String) (as : List Action) (c : ClientId)
    (t : UInt32) (path : String) (s : State)
    (hrun : run (step formatFilename) .init (as ++ [.recvStatus c t path true]) = some s) :
    ∃ before answer, s.log = before ++ [⟨c, t, .otherRequest⟩, ⟨c, t, .message (.status answer.1 answer.2)⟩] ∧
      answer = (lastStatus path (history formatFilename as)).getD ("UNKNOWN", "") ∧
      ∀ c' t' r, ⟨c', t', .message (.written r)⟩ ∈ before → r.filename = path →
        (lastStatus path (history formatFilename as)).isSome ∧
        ∃ status, .finished path r.success status r.errorMessage ∈ history formatFilename as := by
  obtain ⟨s₁, h₁, h₂⟩ := (run_append_eq_some _ _ _ _ _).1 hrun
  obtain ⟨s₂, hstep, h₃⟩ := (run_cons_eq_some _ _ _ _ _).1 h₂
  obtain rfl : s₂ = s := Option.some.inj h₃
  refine ⟨s₁.log, s₁.getStatus path, log_of_recvStatus hstep, ?_, ?_⟩
  · rw [State.getStatus, records_run h₁ path]
  · rintro c' t' r hlog rfl
    obtain ⟨status, hmem⟩ := (truthful_run h₁).reports r (.inr ⟨c', t', hlog⟩)
    refine ⟨?_, status, hmem⟩
    unfold lastStatus
    rw [Option.isSome_map, List.getLast?_isSome]
    refine List.ne_nil_of_mem (a := (r.filename, status, r.errorMessage)) (List.mem_filter.2 ⟨?_, by simp⟩)
    exact List.mem_filterMap.2 ⟨_, hmem, rfl⟩

def failingWrite : List Action :=
  [.isShutdown, .checkBackendQueue true, .recvWriteChunks [1] 5 ⟨"f", 0, false⟩ [⟨7, 0, 1024, 0, 1, 1⟩],
    .enqueueWriteRequest, .statusChanged 0 "QUEUED" "", .enqueueReturns true, .sendList true,
    .finished 0 false "FAILED" "disk full", .enqueueWriteReply 0, .isShutdown, .checkBackendQueue true,
    .checkBackendQueue true]

def afterFailingWrite : State :=
  (run (guard (step (fun _ p => p)) Quiet) .init (failingWrite ++ [.recvStatus [2] 9 "f" true])).get (by decide +kernel)

theorem run_failingWrite : run (guard (step (fun _ p => p)) Quiet) .init (failingWrite ++ [.recvStatus [2] 9 "f" true]) =
    some afterFailingWrite := (Option.some_get _).symm

theorem status_is_last_failed : ∃ before answer, afterFailingWrite.log =
    before ++ [⟨[2], 9, .otherRequest⟩, ⟨[2], 9, .message (.status answer.1 answer.2)⟩] ∧
      answer = ("FAILED", "disk full") := by
  obtain ⟨before, answer, hlog, hanswer, -⟩ := status_is_last (fun _ p => p) failingWrite [2] 9 "f" afterFailingWrite
    (run_of_run_guard _ _ _ _ _ run_failingWrite)
  exact ⟨before, answer, hlog, hanswer.trans (by decide +kernel)⟩

/-- **The status after the report is final**: where one write to the path was asked for, and a write that has finished
changes its status no more, a client that was told that the path is written gets the status and the error message with
which the write finished, now and ever after. -/
theorem status_is_final (formatFilename : AssembledChunk → String → String) (as : List Action) (c : ClientId)
    (t : UInt32) (path : String) (s : State)
    (hrun : run (guard (step formatFilename) Quiet) .init (as ++ [.recvStatus c t path true]) = some s)
    (honce : (history formatFilename as).countP (Happening.isEnqueued path) ≤ 1) (c' : ClientId) (t' : UInt32)
    (r : WriteChunksReply) (hreport : ⟨c', t', .message (.written r)⟩ ∈ s.log) (hpath : r.filename = path) :
    ∃ before status, s.log = before ++ [⟨c, t, .otherRequest⟩, ⟨c, t, .message (.status status r.errorMessage)⟩] ∧
      .finished path r.success status r.errorMessage ∈ history formatFilename as := by
  obtain ⟨s₁, h₁, -⟩ := (run_append_eq_some _ _ _ _ _).1 hrun
  obtain ⟨before, answer, hlog, hanswer, hknown⟩ :=
    status_is_last formatFilename as c t path s (run_of_run_guard _ _ _ _ _ hrun)
  rw [hlog] at hreport
  obtain ⟨-, status, hmem⟩ := hknown c' t' r ((List.mem_append.1 hreport).resolve_right (by simp)) hpath
  rw [settled_run path h₁ honce r.success status r.errorMessage hmem] at hanswer
  exact ⟨before, status, by rw [hlog, hanswer]; rfl, hmem⟩

theorem status_is_final_failed : ∃ before status, afterFailingWrite.log =
    before ++ [⟨[2], 9, .otherRequest⟩, ⟨[2], 9, .message (.status status "disk full")⟩] ∧
      .finished "f" false status "disk full" ∈ history (fun _ p => p) failingWrite :=
  status_is_final (fun _ p => p) failingWrite [2] 9 "f" afterFailingWrite run_failingWrite (by decide +kernel) [1] 5
    ⟨7, 0, 1024, "f", false, "disk full"⟩ (by decide +kernel) rfl

end Rpc
end FrbL1
