import FrbL1.CncDaemon
/-!
# CncOutput — which output of a captive process is in which component of the replies

Every action leaves what is accounted for of a pipe (what the replies have of it, what the request at hand has taken,
what is queued and what is not queued yet) equal to what the process has written, except two: the second loop, when it
finds a line of stdout, and in Python 3 the join of the first, if it has any lines (`Undisturbed`).  A line that is gone
stays gone, so the replies are right if and only if neither has happened (`output_kept_iff`).
-/
namespace FrbL1
namespace Cnc

open Trans

/-- What the request at hand has taken for a component. -/
def Pc.taken : Pc → Nat → Which → Bytes
  | .drainOut i out, j, .out   => if j = i then out.flatten else []
  | .drainErr i out _, j, .out => if j = i then out else []
  | .drainErr i _ err, j, .err => if j = i then err.flatten else []
  | _, _, _                    => []

def replied (sent : List (Option Nat × Reply)) (i : Nat) (w : Which) : Bytes :=
  sent.flatMap (fun x => if x.1 = some i then x.2.component w else [])

namespace State

def accounted (s : State) (i : Nat) (w : Which) : Bytes :=
  replied s.sent i w ++ s.pc.taken i w ++ ((s.stream i w).queued ++ (s.stream i w).unqueued)

/-- **Each component of the replies, and what has yet to go into it, are what the process has written to the pipe.** -/
def Kept (s : State) : Prop := ∀ i w, s.accounted i w = (s.stream i w).written

/-- The same between requests, when the threads have queued all there is. -/
def Delivered (s : State) : Prop :=
  ∀ i w, (s.stream i w).unqueued = [] → replied s.sent i w ++ (s.stream i w).queued = (s.stream i w).written

theorem delivered_iff_kept {s : State} (hpc : s.pc = .listening) (hall : ∀ i w, (s.stream i w).unqueued = []) :
    s.Delivered ↔ s.Kept := by
  have htaken : ∀ i w, s.pc.taken i w = [] := fun i w => by
    rw [hpc]
    cases w <;> rfl
  refine forall₂_congr (fun i w => ?_)
  rw [accounted, htaken, hall, List.append_nil, List.append_nil]
  exact ⟨fun h => h rfl, fun h _ => h⟩

/-- No line of stdout has come when the second loop looks for one, and Python 3 has none to join. -/
def Undisturbed (py : Python) (s : State) : Action → Prop
  | .getNowait =>
    match s.pc with
    | .drainOut i out => (s.stream i .out).queue ≠ [] ∨ join py out ≠ none
    | .drainErr i _ _ => (s.stream i .out).queue = []
    | _               => True
  | _ => True

instance undisturbed_decidable (py : Python) (s : State) : ∀ a : Action, Decidable (s.Undisturbed py a)
  | .getNowait =>
    match hpc : s.pc with
    | .drainOut i out => decidable_of_iff ((s.stream i .out).queue ≠ [] ∨ join py out ≠ none) (by simp only [Undisturbed, hpc])
    | .drainErr i _ _ => decidable_of_iff ((s.stream i .out).queue = []) (by simp only [Undisturbed, hpc])
    | .listening      => .isTrue (by simp only [Undisturbed, hpc])
    | .stopped        => .isTrue (by simp only [Undisturbed, hpc])
  | .stream _ _ _ | .timeout _ | .receive _ => .isTrue trivial

/-! ## One step -/

/-- What is accounted for grows by what is written. -/
def Moves (s s' : State) : Prop :=
  ∀ i w, ∃ b, (s'.stream i w).written = (s.stream i w).written ++ b ∧ s'.accounted i w = s.accounted i w ++ b

/-- So many bytes of the stdout of a process are not accounted for any more. -/
structure Drops (s s' : State) (i : Nat) (lost : Bytes) : Prop where
  written : ∀ j, (s'.stream j .out).written = (s.stream j .out).written
  others  : ∀ j, j ≠ i → s'.accounted j .out = s.accounted j .out
  lost    : (s'.accounted i .out).length + lost.length = (s.accounted i .out).length

end State

theorem join_eq_some {py : Python} {lines : List Bytes} {b : Bytes} (h : join py lines = some b) : b = lines.flatten := by
  unfold join at h
  split at h
  · cases h
  · exact (Option.some.inj h).symm

theorem replied_append (sent : List (Option Nat × Reply)) (about : Option Nat) (r : Reply) (i : Nat) (w : Which) :
    replied (sent ++ [(about, r)]) i w = replied sent i w ++ if about = some i then r.component w else [] := by
  rw [replied, List.flatMap_append, List.flatMap_singleton]
  rfl

namespace State

variable {py : Python} {s s' : State} {i : Nat}

theorem moves_of_eq (hstream : s'.stream = s.stream)
    (htaken : ∀ j w, replied s'.sent j w ++ s'.pc.taken j w = replied s.sent j w ++ s.pc.taken j w) : s.Moves s' := by
  refine fun j w => ⟨[], ?_, ?_⟩
  · rw [hstream, List.append_nil]
  · rw [accounted, accounted, hstream, htaken, List.append_nil]

theorem moves_setStream {w : Which} {t : Stream} {b : Bytes} (hwritten : t.written = (s.stream i w).written ++ b)
    (hmoved : t.queued ++ t.unqueued = (s.stream i w).queued ++ (s.stream i w).unqueued ++ b) :
    s.Moves (s.setStream i w t) := by
  intro j v
  by_cases hj : j = i ∧ v = w
  · obtain ⟨rfl, rfl⟩ := hj
    refine ⟨b, ?_, ?_⟩
    · simp only [setStream, and_self, if_true, hwritten]
    · simp only [accounted, setStream, and_self, if_true, hmoved, List.append_assoc]
  · refine ⟨[], ?_, ?_⟩
    · simp only [setStream, if_neg hj, List.append_nil]
    · simp only [accounted, setStream, if_neg hj, List.append_nil]

theorem moves_receive (hpc : s.pc = .listening) (r : Request) : s.Moves (s.receive r) := by
  have hreply : ∀ (t : State) (x : Reply), t.stream = s.stream → t.sent = s.sent → s.Moves (t.reply none x) := by
    intro t x hstream hsent
    refine moves_of_eq hstream (fun j w => ?_)
    rw [reply, replied_append, hsent, hpc]
    cases w <;> simp [Pc.taken]
  have hpc' : ∀ t : State, t.stream = s.stream → t.sent = s.sent → (∀ j w, t.pc.taken j w = []) → s.Moves t := by
    intro t hstream hsent htaken
    refine moves_of_eq hstream (fun j w => ?_)
    rw [hsent, htaken, hpc]
    cases w <;> simp [Pc.taken]
  unfold receive
  split
  · exact hreply _ _ rfl rfl
  · exact hreply _ _ rfl rfl
  · exact hreply _ _ rfl rfl
  · split
    · exact hreply _ _ rfl rfl
    · refine hpc' _ rfl rfl (fun j w => ?_)
      cases w <;> simp [Pc.taken]
  · split
    · exact hreply _ _ rfl rfl
    · exact hreply _ _ rfl rfl
  · exact hpc' _ rfl rfl (fun j w => by cases w <;> rfl)
  · exact hpc' _ rfl rfl (fun j w => by cases w <;> rfl)
  · exact hreply _ _ rfl rfl
  · exact hreply _ _ rfl rfl
  · exact hreply _ _ rfl rfl

def takes (s : State) (i : Nat) (queue : List Bytes) (pc : Pc) : State :=
  { s.setStream i .out { s.stream i .out with queue := queue } with pc := pc }

theorem accounted_takes_self (queue : List Bytes) (pc : Pc) : (s.takes i queue pc).accounted i .out =
    replied s.sent i .out ++ pc.taken i .out ++ (queue.flatten ++ (s.stream i .out).unqueued) := by
  simp only [accounted, takes, setStream, and_self, if_true]
  rfl

theorem accounted_takes_of_ne {queue : List Bytes} {pc : Pc} {j : Nat} {w : Which} (h : ¬ (j = i ∧ w = .out))
    (htaken : pc.taken j w = s.pc.taken j w) : (s.takes i queue pc).accounted j w = s.accounted j w := by
  simp only [accounted, takes, setStream, if_neg h, htaken]

theorem written_takes (queue : List Bytes) (pc : Pc) (j : Nat) (w : Which) :
    ((s.takes i queue pc).stream j w).written = (s.stream j w).written := by
  simp only [takes, setStream]
  split
  · rename_i h
    rw [h.1, h.2]
  · rfl

theorem accounted_self_of_queue {line : Bytes} {queue : List Bytes} (h : (s.stream i .out).queue = line :: queue) :
    s.accounted i .out = replied s.sent i .out ++ s.pc.taken i .out ++
      (line ++ queue.flatten ++ (s.stream i .out).unqueued) := by
  rw [accounted, Stream.queued, h, List.flatten_cons]

/-! ### The first loop -/

theorem moves_drainOut {out : List Bytes} (hpc : s.pc = .drainOut i out)
    (h : (s.stream i .out).queue ≠ [] ∨ join py out ≠ none) : s.Moves (s.drainOut py i out) := by
  unfold drainOut
  split
  · rename_i line queue hqueue
    refine fun j w => ⟨[], (written_takes queue _ j w).trans (List.append_nil _).symm, ?_⟩
    rw [List.append_nil]
    by_cases hj : j = i ∧ w = .out
    · obtain ⟨rfl, rfl⟩ := hj
      refine (accounted_takes_self queue _).trans ?_
      rw [accounted_self_of_queue hqueue, hpc]
      simp only [Pc.taken, if_true, List.flatten_append, List.flatten_singleton, List.append_assoc]
    · refine accounted_takes_of_ne hj ?_
      rw [hpc]
      cases w with
      | out =>
        have hne : j ≠ i := fun heq => hj ⟨heq, rfl⟩
        simp only [Pc.taken, if_neg hne]
      | err => rfl
  · rename_i hqueue
    split
    · rename_i b hjoin
      refine moves_of_eq rfl (fun j w => ?_)
      rw [hpc, join_eq_some hjoin]
      cases w <;> simp [Pc.taken]
    · rename_i hjoin
      exact absurd hjoin (h.resolve_left (not_not.2 hqueue))

theorem accounted_reply (about : Option Nat) (r : Reply) (j : Nat) (w : Which) : (s.reply about r).accounted j w =
    replied s.sent j w ++ (if about = some j then r.component w else []) ++
      ((s.stream j w).queued ++ (s.stream j w).unqueued) := by
  have htaken : (s.reply about r).pc.taken j w = [] := by cases w <;> rfl
  rw [accounted, htaken, List.append_nil]
  exact congrArg (· ++ _) (replied_append s.sent about r j w)

theorem drops_notUnderstood (htaken : ∀ j, j ≠ i → s.pc.taken j .out = []) :
    s.Drops (s.reply (some i) notUnderstood) i (s.pc.taken i .out) where
  written := fun _ => rfl
  others  := by
    intro j hj
    have hne : ¬ some i = some j := fun heq => hj (Option.some.inj heq).symm
    rw [accounted_reply, accounted, htaken j hj, if_neg hne]
  lost    := by
    rw [accounted_reply, accounted, if_pos rfl]
    simp only [List.length_append, notUnderstood, Reply.component, List.length_nil]
    omega

theorem drops_drainOut {out : List Bytes} (hpc : s.pc = .drainOut i out) (hqueue : (s.stream i .out).queue = [])
    (hjoin : join py out = none) : s.Drops (s.drainOut py i out) i out.flatten := by
  have htaken : ∀ j, j ≠ i → s.pc.taken j .out = [] := fun j hj => by rw [hpc, Pc.taken, if_neg hj]
  have hself : s.pc.taken i .out = out.flatten := by rw [hpc, Pc.taken, if_pos rfl]
  unfold drainOut
  rw [hqueue, hjoin, ← hself]
  exact drops_notUnderstood htaken

/-! ### The second loop -/

theorem drops_drainErr {out line : Bytes} {err queue : List Bytes} (hpc : s.pc = .drainErr i out err)
    (hqueue : (s.stream i .out).queue = line :: queue) : s.Drops (s.drainErr py i out err) i line := by
  have hstep : s.drainErr py i out err = s.takes i queue (.drainErr i out (err ++ [line])) := by
    unfold drainErr
    rw [hqueue]
    rfl
  rw [hstep]
  refine ⟨fun j => written_takes queue _ j .out, fun j hj => ?_, ?_⟩
  · refine accounted_takes_of_ne (fun h => hj h.1) ?_
    rw [hpc]
    rfl
  · rw [accounted_takes_self, accounted_self_of_queue hqueue, hpc]
    simp only [Pc.taken, List.length_append]
    omega

theorem moves_drainErr {out : Bytes} {err : List Bytes} (hpc : s.pc = .drainErr i out err)
    (hqueue : (s.stream i .out).queue = []) (hjoin : join py err ≠ none) : s.Moves (s.drainErr py i out err) := by
  obtain ⟨b, hb⟩ := Option.ne_none_iff_exists'.1 hjoin
  have hstep : s.drainErr py i out err = s.reply (some i) (.output (s.returncode i) out b) := by
    unfold drainErr
    rw [hqueue, hb]
  have hcomm : ∀ j, some i = some j ↔ j = i := fun j => by rw [Option.some.injEq, eq_comm]
  refine fun j w => ⟨[], by rw [hstep, reply, List.append_nil], ?_⟩
  rw [hstep, accounted_reply, accounted, hpc, join_eq_some hb, List.append_nil]
  cases w <;> simp only [Pc.taken, Reply.component, hcomm]

theorem drops_drainErr_join {out : Bytes} {err : List Bytes} (hpc : s.pc = .drainErr i out err)
    (hqueue : (s.stream i .out).queue = []) (hjoin : join py err = none) : s.Drops (s.drainErr py i out err) i out := by
  have htaken : ∀ j, j ≠ i → s.pc.taken j .out = [] := fun j hj => by rw [hpc, Pc.taken, if_neg hj]
  have hself : s.pc.taken i .out = out := by rw [hpc, Pc.taken, if_pos rfl]
  unfold drainErr
  rw [hqueue, hjoin]
  have h := drops_notUnderstood htaken
  rwa [hself] at h

/-! ### Any step -/

theorem step_stream {w : Which} {a : StreamAction} (h : step py s (.stream i w a) = some s') :
    i < s.ncaptives ∧ ∃ t, (s.stream i w).step a = some t ∧ s' = s.setStream i w t := by
  simp only [step] at h
  split at h
  · rename_i hi
    obtain ⟨t, ht, rfl⟩ := Option.map_eq_some_iff.1 h
    exact ⟨hi, t, ht, rfl⟩
  · cases h

theorem step_timeout {terminated : Nat → Bool} (h : step py s (.timeout terminated) = some s') :
    s' = { s with launched := s.launched.idlePass terminated } := by
  simp only [step] at h
  split at h
  · exact (Option.some.inj h).symm
  · cases h

theorem step_receive {r : Request} (h : step py s (.receive r) = some s') : s.pc = .listening ∧ s' = s.receive r := by
  simp only [step] at h
  split at h
  · rename_i hpc
    exact ⟨hpc, (Option.some.inj h).symm⟩
  · cases h

theorem step_getNowait (h : step py s .getNowait = some s') :
    (∃ i out, s.pc = .drainOut i out ∧ s' = s.drainOut py i out) ∨
      ∃ i out err, s.pc = .drainErr i out err ∧ s' = s.drainErr py i out err := by
  simp only [step] at h
  split at h
  · rename_i i out hpc
    exact .inl ⟨i, out, hpc, (Option.some.inj h).symm⟩
  · rename_i i out err hpc
    exact .inr ⟨i, out, err, hpc, (Option.some.inj h).symm⟩
  · cases h

/-- **A step either accounts for what it moves, or drops some of stdout.** -/
theorem step_moves_or_drops {a : Action} (h : step py s a = some s') :
    s.Moves s' ∨ ∃ i lost, s.Drops s' i lost := by
  cases a with
  | stream i w a =>
    obtain ⟨-, t, ht, rfl⟩ := step_stream h
    obtain ⟨b, hwritten, hmoved⟩ := Stream.step_moves ht
    exact .inl (moves_setStream hwritten hmoved)
  | timeout terminated =>
    obtain rfl := step_timeout h
    exact .inl (moves_of_eq rfl (fun _ _ => rfl))
  | receive r =>
    obtain ⟨hpc, rfl⟩ := step_receive h
    exact .inl (moves_receive hpc r)
  | getNowait =>
    obtain ⟨i, out, hpc, rfl⟩ | ⟨i, out, err, hpc, rfl⟩ := step_getNowait h
    · by_cases hg : (s.stream i .out).queue ≠ [] ∨ join py out ≠ none
      · exact .inl (moves_drainOut hpc hg)
      · rw [not_or, not_not, not_not] at hg
        exact .inr ⟨i, _, drops_drainOut hpc hg.1 hg.2⟩
    · cases hqueue : (s.stream i .out).queue with
      | cons line queue => exact .inr ⟨i, _, drops_drainErr hpc hqueue⟩
      | nil =>
        by_cases hjoin : join py err = none
        · exact .inr ⟨i, _, drops_drainErr_join hpc hqueue hjoin⟩
        · exact .inl (moves_drainErr hpc hqueue hjoin)

/-! ## Runs -/

/-- What holds as long as no step has dropped anything. -/
structure Sound (s : State) : Prop where
  kept     : s.Kept
  lines    : ∀ i w, (s.stream i w).Lines
  drainOut : ∀ i out, s.pc = .drainOut i out → [] ∉ out
  drainErr : ∀ i out err, s.pc = .drainErr i out err → err = []

theorem sound_init : init.Sound where
  kept     := fun i w => by cases w <;> rfl
  lines    := fun _ _ => Stream.lines_new
  drainOut := fun _ _ h => nomatch h
  drainErr := fun _ _ _ h => nomatch h

theorem kept_of_moves (hs : s.Kept) (h : s.Moves s') : s'.Kept := by
  intro i w
  obtain ⟨b, hwritten, haccounted⟩ := h i w
  rw [haccounted, hs i w, hwritten]

theorem join_ne_none {lines : List Bytes} (h : lines = []) : join py lines ≠ none := by
  subst h
  cases py <;> exact Option.some_ne_none _

theorem flatten_ne_nil {out : List Bytes} (hjoin : join py out = none) (hlines : [] ∉ out) : out.flatten ≠ [] := by
  cases out with
  | nil => exact absurd hjoin (join_ne_none rfl)
  | cons line out =>
    rw [List.flatten_cons]
    exact List.append_ne_nil_of_left_ne_nil (fun h => hlines (h ▸ .head _)) _

theorem lines_takes {line : Bytes} {queue : List Bytes} {pc : Pc} (hs : ∀ j w, (s.stream j w).Lines)
    (hqueue : (s.stream i .out).queue = line :: queue) : ∀ j w, ((s.takes i queue pc).stream j w).Lines := by
  intro j w
  simp only [takes, setStream]
  split
  · refine ⟨(hs i .out).held, fun hmem => (hs i .out).queue ?_⟩
    rw [hqueue]
    exact .tail _ hmem
  · exact hs j w

theorem receive_stream (s : State) (r : Request) : (s.receive r).stream = s.stream := by
  unfold receive
  split <;> first | rfl | (split <;> rfl)

theorem receive_pc (s : State) (r : Request) : (s.receive r).pc = .listening ∨ (s.receive r).pc = .stopped ∨
    ∃ i, (s.receive r).pc = .drainOut i [] := by
  unfold receive
  split
  case h_4 =>
    split
    · exact .inl rfl
    · exact .inr (.inr ⟨_, rfl⟩)
  case h_5 => split <;> exact .inl rfl
  case h_6 => exact .inr (.inl rfl)
  case h_7 => exact .inr (.inl rfl)
  all_goals exact .inl rfl

theorem sound_receive (hs : s.Sound) (hpc : s.pc = .listening) (r : Request) : (s.receive r).Sound where
  kept     := kept_of_moves hs.kept (moves_receive hpc r)
  lines    := by
    rw [receive_stream]
    exact hs.lines
  drainOut := by
    intro i out h
    obtain h' | h' | ⟨j, h'⟩ := receive_pc s r
    · cases h'.symm.trans h
    · cases h'.symm.trans h
    · cases h'.symm.trans h
      exact List.not_mem_nil
  drainErr := by
    intro i out err h
    obtain h' | h' | ⟨j, h'⟩ := receive_pc s r
    all_goals cases h'.symm.trans h

theorem sound_drainOut {out : List Bytes} (hs : s.Sound) (hpc : s.pc = .drainOut i out)
    (h : (s.stream i .out).queue ≠ [] ∨ join py out ≠ none) : (s.drainOut py i out).Sound := by
  have hkept : (s.drainOut py i out).Kept := kept_of_moves hs.kept (moves_drainOut hpc h)
  unfold State.drainOut at hkept ⊢
  split
  · rename_i line queue hqueue
    simp only [hqueue] at hkept
    refine ⟨hkept, lines_takes hs.lines hqueue, fun j out' hpc' => ?_, fun _ _ _ hpc' => (nomatch hpc')⟩
    obtain ⟨-, rfl⟩ := Pc.drainOut.inj hpc'
    have hline : line ≠ [] := fun hnil => (hs.lines i .out).queue (by rw [hqueue, hnil]; exact .head _)
    rw [List.mem_append, List.mem_singleton, not_or]
    exact ⟨hs.drainOut i out hpc, hline.symm⟩
  · rename_i hqueue
    simp only [hqueue] at hkept
    split
    · rename_i b hjoin
      simp only [hjoin] at hkept
      refine ⟨hkept, hs.lines, fun _ _ hpc' => (nomatch hpc'), fun _ _ _ hpc' => ?_⟩
      exact (Pc.drainErr.inj hpc').2.2.symm
    · rename_i hjoin
      exact absurd hjoin (h.resolve_left (not_not.2 hqueue))

theorem sound_drainErr {out : Bytes} {err : List Bytes} (hs : s.Sound) (hpc : s.pc = .drainErr i out err)
    (hqueue : (s.stream i .out).queue = []) : (s.drainErr py i out err).Sound := by
  have hjoin : join py err ≠ none := join_ne_none (hs.drainErr i out err hpc)
  have hkept : (s.drainErr py i out err).Kept := kept_of_moves hs.kept (moves_drainErr hpc hqueue hjoin)
  obtain ⟨b, hb⟩ := Option.ne_none_iff_exists'.1 hjoin
  unfold State.drainErr at hkept ⊢
  rw [hqueue, hb] at hkept ⊢
  exact ⟨hkept, hs.lines, fun _ _ hpc' => (nomatch hpc'), fun _ _ _ hpc' => (nomatch hpc')⟩

theorem sound_step {a : Action} (hs : s.Sound) (hg : s.Undisturbed py a) (h : step py s a = some s') : s'.Sound := by
  cases a with
  | stream i w a =>
    obtain ⟨-, t, ht, rfl⟩ := step_stream h
    obtain ⟨b, hwritten, hmoved⟩ := Stream.step_moves ht
    refine ⟨kept_of_moves hs.kept (moves_setStream hwritten hmoved), fun j v => ?_, hs.drainOut, hs.drainErr⟩
    simp only [setStream]
    split
    · exact Stream.step_lines (hs.lines i w) ht
    · exact hs.lines j v
  | timeout terminated =>
    obtain rfl := step_timeout h
    exact ⟨hs.kept, hs.lines, hs.drainOut, hs.drainErr⟩
  | receive r =>
    obtain ⟨hpc, rfl⟩ := step_receive h
    exact sound_receive hs hpc r
  | getNowait =>
    obtain ⟨i, out, hpc, rfl⟩ | ⟨i, out, err, hpc, rfl⟩ := step_getNowait h
    · simp only [Undisturbed, hpc] at hg
      exact sound_drainOut hs hpc hg
    · simp only [Undisturbed, hpc] at hg
      exact sound_drainErr hs hpc hg

def Spoilt (s : State) : Prop := ∃ i, (s.accounted i .out).length < (s.stream i .out).written.length

theorem not_spoilt_of_kept (hs : s.Kept) : ¬ s.Spoilt := by
  rintro ⟨i, hlt⟩
  rw [hs i .out] at hlt
  exact Nat.lt_irrefl _ hlt

theorem spoilt_of_drops {lost : Bytes} (hs : s.Kept) (h : s.Drops s' i lost) (hlost : lost ≠ []) : s'.Spoilt := by
  refine ⟨i, ?_⟩
  have hpos : 0 < lost.length := List.length_pos_iff.2 hlost
  have hlen := h.lost
  rw [hs i .out] at hlen
  rw [h.written i]
  omega

theorem spoilt_step {a : Action} (hs : s.Sound) (hg : ¬ s.Undisturbed py a) (h : step py s a = some s') : s'.Spoilt := by
  cases a with
  | getNowait =>
    obtain ⟨i, out, hpc, rfl⟩ | ⟨i, out, err, hpc, rfl⟩ := step_getNowait h
    · simp only [Undisturbed, hpc] at hg
      rw [not_or, not_not, not_not] at hg
      exact spoilt_of_drops hs.kept (drops_drainOut hpc hg.1 hg.2) (flatten_ne_nil hg.2 (hs.drainOut i out hpc))
    · simp only [Undisturbed, hpc] at hg
      obtain ⟨line, queue, hqueue⟩ := List.exists_cons_of_ne_nil hg
      have hline : line ≠ [] := fun hnil => (hs.lines i .out).queue (by rw [hqueue, hnil]; exact .head _)
      exact spoilt_of_drops hs.kept (drops_drainErr hpc hqueue) hline
  | stream i w a => exact absurd trivial hg
  | timeout terminated => exact absurd trivial hg
  | receive r => exact absurd trivial hg

theorem spoilt_stays {a : Action} (hs : s.Spoilt) (h : step py s a = some s') : s'.Spoilt := by
  obtain ⟨j, hlt⟩ := hs
  refine ⟨j, ?_⟩
  obtain hmoves | ⟨i, lost, hdrops⟩ := step_moves_or_drops h
  · obtain ⟨b, hwritten, haccounted⟩ := hmoves j .out
    rw [hwritten, haccounted, List.length_append, List.length_append]
    omega
  · rw [hdrops.written j]
    by_cases hj : j = i
    · subst hj
      have hlen := hdrops.lost
      omega
    · rw [hdrops.others j hj]
      exact hlt

end State

/-- **The replies have what the process has written**, if and only if in no `read_proc` so far the second loop has found
a line of stdout (nor, in Python 3, has the first). -/
theorem output_kept_iff (py : Python) (as : List Action) (s : State) (h : run (step py) .init as = some s) :
    (s.Kept ↔ run (guard (step py) (State.Undisturbed py)) .init as = some s) ∧
      (s.pc = .listening → (∀ i w, (s.stream i w).unqueued = []) →
        (s.Delivered ↔ run (guard (step py) (State.Undisturbed py)) .init as = some s)) := by
  have hkept : s.Kept ↔ run (guard (step py) (State.Undisturbed py)) .init as = some s := by
    constructor
    · intro hs
      exact run_guard_of_run (step py) (State.Undisturbed py) (fun _ _ _ => State.sound_step)
        (fun _ _ _ => State.spoilt_step) (fun _ _ _ => State.spoilt_stays) as .init s State.sound_init h
        (State.not_spoilt_of_kept hs)
    · intro hrun
      have hsound : s.Sound := run_invariant (guard (step py) (State.Undisturbed py)) State.Sound
        (fun _ _ _ hs hstep => State.sound_step hs (guard_eq_some.1 hstep).1 (guard_eq_some.1 hstep).2)
        as .init s State.sound_init hrun
      exact hsound.kept
  exact ⟨hkept, fun hpc hall => (State.delivered_iff_kept hpc hall).trans hkept⟩

def writesLine : List Action :=
  [.stream 0 .out (.write "ok\n".toList), .stream 0 .out .readline, .stream 0 .out .put]

def earlyLine : List Action :=
  .receive (.launch true (some 7)) :: writesLine ++ [.receive (.readProc 7 none), .getNowait, .getNowait, .getNowait]

def lateLine : List Action :=
  [.receive (.launch true (some 7)), .receive (.readProc 7 none), .getNowait] ++ writesLine ++ [.getNowait, .getNowait]

/-- A line that is there when the request comes. -/
theorem kept_earlyLine : ∃ s, run (step .py2) .init earlyLine = some s ∧ s.Kept :=
  ⟨_, rfl, (output_kept_iff .py2 earlyLine _ rfl).1.2 rfl⟩

/-- **A line that comes between the two loops** is taken for one of stderr. -/
theorem not_delivered_lateLine : ¬ ∀ (py : Python) (as : List Action) (s : State), run (step py) .init as = some s →
    s.pc = .listening → (∀ i w, (s.stream i w).unqueued = []) → s.Delivered := by
  intro h
  have hall : ∀ i w, (((run (step .py2) .init lateLine).get rfl).stream i w).unqueued = []
    | 0, .out   => rfl
    | 0, .err   => rfl
    | _ + 1, .out => rfl
    | _ + 1, .err => rfl
  have hs := h .py2 lateLine _ rfl rfl hall 0 .out rfl
  have hlen := congrArg List.length hs
  revert hlen
  decide

end Cnc
end FrbL1
