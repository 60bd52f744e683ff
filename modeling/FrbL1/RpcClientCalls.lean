import FrbL1.RpcClientReplies
/-!
# RpcClientCalls — what the multi-server calls and `wait_for_all_writes` return

The tokens of all requests ever sent are distinct, so a token belongs to one server and one call; whatever a server
echoes, it echoes to the call that asked (`Books`).  `wait_for_all_writes` goes through its tokens one after the other,
and the replies it collects for one of them are consecutive, beginning where earlier waits had stopped.
-/
namespace FrbL1
namespace Client

open Trans

variable {Server Parts : Type}

/-! ## What each point of the code knows -/

def Asked (sent : List (Server × Int)) (servers : List Server) (tokens : List Int) : Prop :=
  servers.length = tokens.length ∧ ∀ x ∈ servers.zip tokens, x ∈ sent

section
variable (returned : List (List (Entry Server Parts)))

/-- A token of `wait_for_all_writes` that is dealt with. -/
def Segment.Ok (g : Segment Server Parts) : Prop :=
  g.got <+: (returnedIn returned g.token).drop g.start ∧ g.got.length ≤ g.N

/-- The token `wait_for_all_writes` is at: `got` is all that was returned for it since. -/
def Segment.Current (g : Segment Server Parts) : Prop :=
  g.start ≤ (returnedIn returned g.token).length ∧ g.got = (returnedIn returned g.token).drop g.start ∧
    g.got.length ≤ g.N

/-- The tokens that `wait_for_all_writes` waits for, with the number of replies it expects. -/
def expected (args : List (Int × Option Nat)) : List (Int × Nat) := args.filterMap (fun x => x.2.map (x.1, ·))

/-- The loop of `wait_for_all_writes`, at one of its tokens or between two. -/
structure AllWrites.Ok (a : AllWrites Server Parts) (cur : Option (Segment Server Parts)) : Prop where
  split : (a.done ++ cur.toList).map (fun g => (g.token, g.N)) ++ expected a.left = expected a.args
  done  : ∀ g ∈ a.done, g.Ok returned ∧ (a.timeout₀ < 0 → g.got.length = g.N)
  time  : a.timeout < 0 ↔ a.timeout₀ < 0
  since : ∀ t, a.called t ≤ (returnedIn returned t).length
  start : ∀ g ∈ a.done ++ cur.toList, a.called g.token ≤ g.start

def Pc.Ok (sent : List (Server × Int)) : Pc Server Parts → Prop
  | .idle                                 => True
  | .waiting _ .user                      => True
  | .waiting w (.request servers)         => Asked sent servers w.tokens
  | .waiting w (.writeChunks servers _ _) => Asked sent servers w.tokens
  | .waiting w (.allWrites a g)           =>
    a.Ok returned (some g) ∧ g.Current returned ∧ g.got.length < g.N ∧ w.tokens = [g.token] ∧
      (w.timeout < 0 ↔ a.timeout₀ < 0)
  | .allWrites a                          => a.Ok returned none
  | .segment a g                          => a.Ok returned (some g) ∧ g.Current returned

def Call.Ok (sent : List (Server × Int)) (c : Call Server Parts) : Prop :=
  Asked sent c.servers c.tokens ∧ c.entries.map (·.1) = c.tokens ∧ c.entries ∈ returned

end

/-- **The books of the client**: what was sent, what the calls returned, and what the running call is owed. -/
structure Books (s : State Server Parts) : Prop where
  fresh  : (s.sent.map (·.2)).Nodup
  bound  : ∀ x ∈ s.sent, x.2 ≤ s.token
  calls  : ∀ c ∈ s.calls, c.Ok s.returned s.sent
  writes : ∀ a ∈ s.writes, a.left = [] ∧ a.Ok s.returned none
  pc     : s.pc.Ok s.returned s.sent

theorem books_init : Books (State.init : State Server Parts) :=
  ⟨List.nodup_nil, fun _ h => (nomatch h), fun _ h => (nomatch h), fun _ h => (nomatch h), trivial⟩

/-! ## More is sent and returned -/

section
variable {returned : List (List (Entry Server Parts))} {sent : List (Server × Int)}

theorem asked_append (more : List (Server × Int)) {servers : List Server} {tokens : List Int}
    (ha : Asked sent servers tokens) : Asked (sent ++ more) servers tokens :=
  ⟨ha.1, fun x hx => List.mem_append_left more (ha.2 x hx)⟩

theorem segment_append (more : List (List (Entry Server Parts))) {g : Segment Server Parts} (hg : g.Ok returned) :
    g.Ok (returned ++ more) := by
  refine ⟨hg.1.trans ?_, hg.2⟩
  rw [show returnedIn (returned ++ more) g.token = returnedIn returned g.token ++ returnedIn more g.token from
    List.flatMap_append, List.drop_append]
  exact List.prefix_append _ _

theorem allWrites_append (more : List (List (Entry Server Parts))) {a : AllWrites Server Parts}
    {cur : Option (Segment Server Parts)} (ha : a.Ok returned cur) : a.Ok (returned ++ more) cur :=
  ⟨ha.split, fun g hg => ⟨segment_append more (ha.done g hg).1, (ha.done g hg).2⟩, ha.time, fun t => by
    rw [show returnedIn (returned ++ more) t = returnedIn returned t ++ returnedIn more t from List.flatMap_append,
      List.length_append]
    exact Nat.le_add_right_of_le (ha.since t), ha.start⟩

theorem call_append (more : List (List (Entry Server Parts))) (more' : List (Server × Int)) {c : Call Server Parts}
    (hc : c.Ok returned sent) : c.Ok (returned ++ more) (sent ++ more') :=
  ⟨asked_append more' hc.1, hc.2.1, List.mem_append_left more hc.2.2⟩

/-- A segment that ends, with fewer replies than expected only if there is a timeout. -/
theorem allWrites_ends {a : AllWrites Server Parts} {g : Segment Server Parts} (ha : a.Ok returned (some g))
    (hg : g.Ok returned) (hN : a.timeout₀ < 0 → g.got.length = g.N) {timeout : ℚ} (ht : timeout < 0 ↔ a.timeout < 0) :
    ({ a with timeout := timeout, done := a.done ++ [g] } : AllWrites _ _).Ok returned none where
  split := by simpa using ha.split
  done  := fun g' hg' => by
    rcases List.mem_append.1 hg' with hg' | hg'
    · exact ha.done g' hg'
    · rw [List.mem_singleton.1 hg']; exact ⟨hg, hN⟩
  time  := ht.trans ha.time
  since := ha.since
  start := by simpa using ha.start

theorem allWrites_begins (returned : List (List (Entry Server Parts))) (args : List (Int × Option Nat)) (timeout : ℚ) :
    (⟨args, fun t => (returnedIn returned t).length, timeout, timeout, args, []⟩ : AllWrites Server Parts).Ok returned
      none where
  split := rfl
  done  := fun _ hg => nomatch hg
  time  := Iff.rfl
  since := fun _ => Nat.le_refl _
  start := fun _ hg => nomatch hg

end

theorem adjust_neg (timeout dt : ℚ) : adjust timeout dt < 0 ↔ timeout < 0 := by
  unfold adjust
  split
  · rename_i h
    exact iff_of_false (not_lt.2 (le_max_left _ _)) (not_lt.2 h.le)
  · exact Iff.rfl

/-! ## The steps -/

/-- What arrives, and what the wait loop does between its call and its return. -/
def Action.inner : Action Server Parts → Bool
  | .arrive _ _ | .popToken | .popped | .poll _ | .recvMultipart | .eventsDone | .adjustTimeout _ => true
  | _                                                                                         => false

structure State.Inner (s s' : State Server Parts) : Prop where
  token    : s'.token = s.token
  sent     : s'.sent = s.sent
  returned : s'.returned = s.returned
  calls    : s'.calls = s.calls
  writes   : s'.writes = s.writes
  pc       : s'.pc = s.pc ∨ s'.pc = .idle ∨ ∃ w w' k, s.pc = .waiting w k ∧ s'.pc = .waiting w' k ∧
    w'.tokens = w.tokens ∧ (w'.timeout < 0 ↔ w.timeout < 0)

theorem books_inner {s s' : State Server Parts} (hB : Books s) (h : s.Inner s') : Books s' := by
  refine ⟨by rw [h.sent]; exact hB.fresh, by rw [h.sent, h.token]; exact hB.bound, ?_, ?_, ?_⟩
  · rw [h.calls, h.returned, h.sent]
    exact hB.calls
  · rw [h.writes, h.returned]
    exact hB.writes
  · rw [h.returned, h.sent]
    have hpc := hB.pc
    rcases h.pc with he | he | ⟨w, w', k, he, he', htok, htime⟩
    · rw [he]; exact hpc
    · rw [he]; trivial
    · rw [he']
      rw [he] at hpc
      cases k with
      | user => trivial
      | request servers => simpa only [Pc.Ok, htok] using hpc
      | writeChunks servers waitAll timeout => simpa only [Pc.Ok, htok] using hpc
      | allWrites a g => simpa only [Pc.Ok, htok, htime] using hpc

theorem books_request {s s' : State Server Parts} {servers : List Server} (hB : Books s)
    (htok : s'.token = s.token + servers.length) (hsent : s'.sent = s.sent ++ sendAll s.token servers)
    (hret : s'.returned = s.returned) (hcalls : s'.calls = s.calls) (hwrites : s'.writes = s.writes)
    (hpc : Asked s'.sent servers ((sendAll s.token servers).map (·.2)) → s'.pc.Ok s'.returned s'.sent) : Books s' := by
  refine ⟨?_, ?_, ?_, ?_, hpc ⟨?_, ?_⟩⟩
  · rw [hsent, List.map_append]
    refine hB.fresh.append (sendAll_nodup servers s.token) (fun t ht ht' => ?_)
    obtain ⟨x, hx, rfl⟩ := List.mem_map.1 ht
    obtain ⟨y, hy, he⟩ := List.mem_map.1 ht'
    have h1 := hB.bound x hx
    have h2 := (sendAll_bounds servers s.token y hy).1
    omega
  · intro x hx
    rw [hsent, List.mem_append] at hx
    rw [htok]
    rcases hx with hx | hx
    · have := hB.bound x hx
      omega
    · exact (sendAll_bounds servers s.token x hx).2
  · rw [hcalls, hret, hsent]
    exact fun c hc => by simpa using call_append [] (sendAll s.token servers) (hB.calls c hc)
  · rw [hwrites, hret]
    exact hB.writes
  · rw [List.length_map, sendAll_length]
  · intro x hx
    rw [zip_sendAll] at hx
    rw [hsent]
    exact List.mem_append_right _ hx

section
variable [DecidableEq Server] {chunkListLen : Parts → Option Nat} {unpacksReply : Parts → Bool}

theorem step_inner {s s' : State Server Parts} {a : Action Server Parts} (hi : a.inner = true)
    (h : step chunkListLen unpacksReply s a = some s') : s.Inner s' := by
  cases a with
  | arrive k m =>
    simp only [step, Option.some.injEq] at h
    subst h
    exact ⟨rfl, rfl, rfl, rfl, rfl, .inl rfl⟩
  | popToken =>
    simp only [step] at h
    split at h
    · rename_i hpc
      split at h <;> cases h
      · exact ⟨rfl, rfl, rfl, rfl, rfl, .inr (.inr ⟨_, _, _, hpc, rfl, rfl, Iff.rfl⟩)⟩
      · exact ⟨rfl, rfl, rfl, rfl, rfl, .inr (.inl rfl)⟩
      · exact ⟨rfl, rfl, rfl, rfl, rfl, .inr (.inr ⟨_, _, _, hpc, rfl, rfl, Iff.rfl⟩)⟩
    · cases h
  | popped =>
    simp only [step] at h
    split at h <;> cases h
    rename_i hpc
    exact ⟨rfl, rfl, rfl, rfl, rfl, .inr (.inr ⟨_, _, _, hpc, rfl, rfl, Iff.rfl⟩)⟩
  | poll events =>
    simp only [step] at h
    split at h
    · split at h
      · rename_i hpc
        cases h
        exact ⟨rfl, rfl, rfl, rfl, rfl, .inr (.inr ⟨_, _, _, hpc, rfl, rfl, Iff.rfl⟩)⟩
      · rename_i hpc
        split at h
        · cases h
          exact ⟨rfl, rfl, rfl, rfl, rfl, .inr (.inr ⟨_, _, _, hpc, rfl, rfl, Iff.rfl⟩)⟩
        · split at h <;> cases h
          exact ⟨rfl, rfl, rfl, rfl, rfl, .inr (.inr ⟨_, _, _, hpc, rfl, rfl, Iff.rfl⟩)⟩
      · cases h
    · cases h
  | recvMultipart =>
    simp only [step] at h
    split at h
    · rename_i hpc
      split at h <;> cases h
      exact ⟨rfl, rfl, rfl, rfl, rfl, .inr (.inr ⟨_, _, _, hpc, rfl, rfl, Iff.rfl⟩)⟩
    · cases h
  | eventsDone =>
    simp only [step] at h
    split at h <;> cases h
    rename_i hpc
    exact ⟨rfl, rfl, rfl, rfl, rfl, .inr (.inr ⟨_, _, _, hpc, rfl, rfl, Iff.rfl⟩)⟩
  | adjustTimeout dt =>
    simp only [step] at h
    split at h <;> cases h
    rename_i hpc
    exact ⟨rfl, rfl, rfl, rfl, rfl, .inr (.inr ⟨_, _, _, hpc, rfl, rfl, adjust_neg _ dt⟩)⟩
  | request kind servers wait timeout => cases hi
  | waitForTokens tokens timeout => cases hi
  | waitForAllWrites chunklists tokens timeout => cases hi
  | waitReturns dt => cases hi
  | nextToken => cases hi
  | nextReply => cases hi

theorem books_return {s : State Server Parts} {w : Wait Server Parts} {k : Caller Server Parts} (hI : Inv s)
    (hB : Books s) (hpc : s.pc = .waiting w k) (hw : w.pc = .returning) (dt : ℚ) :
    Books (({ s with returned := s.returned ++ [w.tokens.map (fun t => (t, w.results t))] } :
      State Server Parts).afterWait chunkListLen unpacksReply w dt k) := by
  have hok := hB.pc
  rw [hpc] at hok
  have hcalls : ∀ c ∈ s.calls, c.Ok (s.returned ++ [w.tokens.map (fun t => (t, w.results t))]) s.sent :=
    fun c hc => by simpa using call_append [w.tokens.map (fun t => (t, w.results t))] [] (hB.calls c hc)
  have hwrites : ∀ a ∈ s.writes, a.left = [] ∧ a.Ok (s.returned ++ [w.tokens.map (fun t => (t, w.results t))]) none :=
    fun a ha => ⟨(hB.writes a ha).1, allWrites_append _ (hB.writes a ha).2⟩
  -- the call that made the requests keeps a record of what it got
  have hcall : ∀ servers : List Server, Asked s.sent servers w.tokens →
      ∀ c ∈ s.calls ++ [⟨servers, w.tokens, w.tokens.map (fun t => (t, w.results t))⟩],
        c.Ok (s.returned ++ [w.tokens.map (fun t => (t, w.results t))]) s.sent := by
    intro servers ha c hc
    rcases List.mem_append.1 hc with hc | hc
    · exact hcalls c hc
    · rw [List.mem_singleton.1 hc]
      exact ⟨ha, by simp [Function.comp_def], List.mem_append_right _ (List.mem_singleton.2 rfl)⟩
  cases k with
  | user => exact ⟨hB.fresh, hB.bound, hcalls, hwrites, trivial⟩
  | request servers => exact ⟨hB.fresh, hB.bound, hcall servers hok, hwrites, trivial⟩
  | writeChunks servers waitAll timeout =>
    simp only [State.afterWait]
    split
    · exact ⟨hB.fresh, hB.bound, hcall servers hok, hwrites, trivial⟩
    · split
      · exact ⟨hB.fresh, hB.bound, hcall servers hok, hwrites, allWrites_begins _ _ timeout⟩
      · exact ⟨hB.fresh, hB.bound, hcall servers hok, hwrites, trivial⟩
  | allWrites a g =>
    obtain ⟨ha, ⟨hstart, hgot, hN⟩, hlt, htok, htime⟩ := hok
    have ha₁ := allWrites_append [w.tokens.map (fun t => (t, w.results t))] ha
    have hret : returnedIn (s.returned ++ [w.tokens.map (fun t => (t, w.results t))]) g.token =
        returnedIn s.returned g.token ++ (w.results g.token).toList := by
      rw [← deliveredIn_results w (hI.waiting w _ hpc)]
      simp [returnedIn]
    simp only [State.afterWait]
    split
    · rename_i hnone
      refine ⟨hB.fresh, hB.bound, hcalls, hwrites, allWrites_ends ha₁ ⟨?_, hN⟩ (fun hneg => ?_) (adjust_neg _ dt)⟩
      · simp only [hret, hnone, Option.toList_none, List.append_nil, ← hgot]
        exact List.prefix_rfl
      · -- without a timeout a wait returns only when it has everything
        rcases (hI.waiting w _ hpc).returning hw with htodo | h0
        · exact absurd hnone ((hI.waiting w _ hpc).settled g.token (by rw [htok]; exact .head _)
            (by rw [htodo]; exact List.not_mem_nil))
        · exact absurd (htime.2 hneg) (not_lt.2 h0)
    · rename_i r hsome
      split
      · refine ⟨hB.fresh, hB.bound, hcalls, hwrites, ⟨?_, ha₁.done, (adjust_neg _ dt).trans ha₁.time, ha₁.since, ?_⟩,
          ?_, ?_, ?_⟩
        · simpa using ha₁.split
        · intro g' hg'
          rcases List.mem_append.1 hg' with hg' | hg'
          · exact ha₁.start g' (List.mem_append_left _ hg')
          · obtain rfl : g' = { g with got := g.got ++ [r] } := by simpa using hg'
            exact ha₁.start g (List.mem_append_right _ (.head _))
        · rw [hret, List.length_append]
          exact Nat.le_add_right_of_le hstart
        · rw [hret, hsome, List.drop_append_of_le_length hstart, ← hgot]; rfl
        · rw [List.length_append, List.length_singleton]
          exact hlt
      · exact ⟨hB.fresh, hB.bound, hcalls, hwrites, trivial⟩

/-- **One action keeps the books.** -/
theorem books_step (s : State Server Parts) (a : Action Server Parts) (s' : State Server Parts) (hI : Inv s)
    (hB : Books s) (h : step chunkListLen unpacksReply s a = some s') : Books s' := by
  by_cases hi : a.inner = true
  · exact books_inner hB (step_inner hi h)
  have hok := hB.pc
  cases a with
  | request kind servers wait timeout =>
    simp only [step] at h
    split at h <;> cases h
    rename_i hpc
    cases wait with
    | false => exact books_request hB rfl rfl rfl rfl rfl (fun _ => by rw [if_neg (by decide), hpc]; trivial)
    | true =>
      cases kind with
      | simple => exact books_request hB rfl rfl rfl rfl rfl id
      | writeChunks waitAll => exact books_request hB rfl rfl rfl rfl rfl id
  | waitForTokens tokens timeout =>
    simp only [step] at h
    split at h <;> cases h
    exact ⟨hB.fresh, hB.bound, hB.calls, hB.writes, trivial⟩
  | waitForAllWrites chunklists tokens timeout =>
    simp only [step] at h
    split at h <;> cases h
    exact ⟨hB.fresh, hB.bound, hB.calls, hB.writes, allWrites_begins _ _ timeout⟩
  | waitReturns dt =>
    simp only [step] at h
    split at h <;> cases h
    rename_i hpc
    exact books_return hI hB hpc rfl dt
  | nextToken =>
    simp only [step] at h
    split at h
    · rename_i a hpc
      rw [hpc] at hok
      split at h <;> cases h
      · rename_i hleft
        refine ⟨hB.fresh, hB.bound, hB.calls, fun b hb => ?_, trivial⟩
        rcases List.mem_append.1 hb with hb | hb
        · exact hB.writes b hb
        · rw [List.mem_singleton.1 hb]
          exact ⟨hleft, hok⟩
      · rename_i t left hleft
        refine ⟨hB.fresh, hB.bound, hB.calls, hB.writes, ?_, hok.done, hok.time, hok.since, hok.start⟩
        simpa [expected, hleft] using hok.split
      · rename_i t N left hleft
        refine ⟨hB.fresh, hB.bound, hB.calls, hB.writes, ⟨?_, hok.done, hok.time, hok.since, ?_⟩, Nat.le_refl _, ?_,
          Nat.zero_le _⟩
        · simpa [expected, hleft] using hok.split
        · intro g hg
          rcases List.mem_append.1 hg with hg | hg
          · exact hok.start g (List.mem_append_left _ hg)
          · obtain rfl : g = ⟨t, N, (s.returnedFor t).length, []⟩ := by simpa using hg
            exact hok.since t
        · exact List.drop_length.symm
    · cases h
  | nextReply =>
    simp only [step] at h
    split at h
    · rename_i a g hpc
      rw [hpc] at hok
      obtain ⟨ha, hstart, hgot, hN⟩ := hok
      cases h
      split
      · rename_i hlt
        exact ⟨hB.fresh, hB.bound, hB.calls, hB.writes, ha, ⟨hstart, hgot, hN⟩, hlt, rfl, ha.time⟩
      · rename_i hge
        refine ⟨hB.fresh, hB.bound, hB.calls, hB.writes, allWrites_ends ha ⟨?_, hN⟩ (fun _ => ?_) Iff.rfl⟩
        · exact ⟨[], (List.append_nil _).trans hgot⟩
        · omega
    · cases h
  | _ => exact absurd rfl hi

/-! ## Whole runs -/

theorem inv_books_run (as : List (Action Server Parts)) (s : State Server Parts)
    (hrun : run (guard (step chunkListLen unpacksReply) Distinct) .init as = some s) : Inv s ∧ Books s := by
  refine run_invariant _ (fun s => Inv s ∧ Books s) (fun s a s' hIB h => ?_) as .init s ⟨inv_init, books_init⟩ hrun
  exact ⟨inv_step s a s' hIB.1 h, books_step s a s' hIB.1 hIB.2 (guard_eq_some.1 h).2⟩

theorem arrived_of_readsFor {s : State Server Parts} (hI : Inv s) {t : Int} {p : Server × Parts}
    (hp : p ∈ s.readsFor t) : (p.1, ⟨t, p.2⟩) ∈ s.arrived := by
  obtain ⟨⟨k, m⟩, hr, hm⟩ := List.mem_filterMap.1 hp
  simp only [Option.ite_none_right_eq_some, Option.some.injEq] at hm
  obtain ⟨rfl, rfl⟩ := hm
  have hread : m ∈ s.readFrom k := List.mem_filterMap.2 ⟨(k, m), hr, by simp⟩
  have harr : m ∈ s.arrivedFrom k := by
    rw [hI.sockets k]
    exact List.mem_append_left _ hread
  obtain ⟨⟨k', m'⟩, hr', hm'⟩ := List.mem_filterMap.1 harr
  simp only [Option.ite_none_right_eq_some, Option.some.injEq] at hm'
  obtain ⟨rfl, rfl⟩ := hm'
  exact hr'

theorem readsFor_of_returned {s : State Server Parts} (hI : Inv s) {es : List (Entry Server Parts)}
    (hes : es ∈ s.returned) {t : Int} {p : Server × Parts} (hp : (t, some p) ∈ es) : p ∈ s.readsFor t := by
  rw [hI.once t]
  refine List.mem_append_left _ (List.mem_append_left _ (List.mem_flatMap.2 ⟨es, hes, ?_⟩))
  exact List.mem_filterMap.2 ⟨(t, some p), hp, by simp⟩

omit [DecidableEq Server] in
theorem filter_token : ∀ (l : List (Server × Int)), (l.map (·.2)).Nodup → ∀ x ∈ l, l.filter (·.2 = x.2) = [x]
  | [], _, _, hx => nomatch hx
  | y :: l, hn, x, hx => by
    obtain ⟨hy, hn⟩ := List.nodup_cons.1 hn
    rcases List.mem_cons.1 hx with rfl | hx
    · have hnone : l.filter (·.2 = x.2) = [] :=
        List.filter_eq_nil_iff.2 (fun z hz he => hy (List.mem_map.2 ⟨z, hz, by simpa using he⟩))
      simp [hnone]
    · have hne : y.2 ≠ x.2 := fun he => hy (List.mem_map.2 ⟨x, hx, he.symm⟩)
      simpa [hne] using filter_token l hn x hx

/-- **Every reply is delivered once.**  In every run of the client, with replies arriving in any order and waits timing
out at any point: the replies read under a token are those delivered for it, in order, and then those buffered for it;
no buffer is empty; the replies of a socket are those read from it and then those still in it.  If the servers echo
tokens they were sent, each entry of a multi-server call that is there is the reply of its own server to the one request
ever made with its token, which is this very call's, since `calls` records the tokens the call was sent with.  And
`wait_for_all_writes` returns for each of its tokens consecutive replies, none of those that were taken before it was
called, no more than it expects, and without a timeout not fewer. -/
theorem replies_delivered_once (chunkListLen : Parts → Option Nat) (unpacksReply : Parts → Bool)
    (as : List (Action Server Parts)) (s : State Server Parts)
    (hrun : run (guard (step chunkListLen unpacksReply) Distinct) .init as = some s) :
    (∀ t, s.readsFor t = s.deliveredFor t ++ s.bufferedFor t) ∧
    (∀ t, s.received t ≠ some []) ∧
    (∀ k, s.arrivedFrom k = s.readFrom k ++ s.inbox k) ∧
    ((∀ r ∈ s.arrived, (r.1, r.2.token) ∈ s.sent) → ∀ c ∈ s.calls, c.entries.length = c.servers.length ∧
      ∀ (i : Nat) (k : Server) (t : Int) (p : Server × Parts), c.servers[i]? = some k →
        c.entries[i]? = some (t, some p) →
        p.1 = k ∧ p ∈ s.readsFor t ∧ s.sent.filter (·.2 = t) = [(k, t)]) ∧
    (∀ a ∈ s.writes, a.done.map (fun g => (g.token, g.N)) = expected a.args ∧ ∀ g ∈ a.done,
      a.called g.token ≤ g.start ∧ g.got <+: (s.readsFor g.token).drop g.start ∧ g.got.length ≤ g.N ∧
      (a.timeout₀ < 0 → g.got.length = g.N)) := by
  obtain ⟨hI, hB⟩ := inv_books_run as s hrun
  refine ⟨hI.once, hI.buffered, hI.sockets, fun hecho c hc => ?_, fun a ha => ?_⟩
  · obtain ⟨⟨hlen, hsent⟩, htokens, hret⟩ := hB.calls c hc
    refine ⟨?_, fun i k t p hk he => ?_⟩
    · rw [hlen, ← htokens, List.length_map]
    · have hread := readsFor_of_returned hI hret (List.mem_of_getElem? he)
      have hti : c.tokens[i]? = some t := by rw [← htokens, List.getElem?_map, he]; rfl
      have hkt : (k, t) ∈ s.sent := hsent (k, t) (List.mem_of_getElem? (i := i) (by
        rw [List.getElem?_zip_eq_some]; exact ⟨hk, hti⟩))
      have hone := filter_token s.sent hB.fresh (k, t) hkt
      have hpt : (p.1, t) ∈ s.sent.filter (·.2 = t) := by
        simpa using hecho _ (arrived_of_readsFor hI hread)
      rw [hone, List.mem_singleton] at hpt
      exact ⟨congrArg Prod.fst hpt, hread, hone⟩
  · obtain ⟨hleft, hok⟩ := hB.writes a ha
    refine ⟨by simpa [hleft, expected] using hok.split, fun g hg => ?_⟩
    obtain ⟨⟨hgot, hN⟩, hall⟩ := hok.done g hg
    refine ⟨hok.start g (by simpa using hg), hgot.trans ?_, hN, hall⟩
    rw [hI.once, State.deliveredFor, List.append_assoc, List.drop_append]
    exact List.prefix_append _ _

end

/-- Two servers are asked and only the second answers in time; the first answer is then waited for; and a
`write_chunks` call waits for its one chunk. -/
def lateReplyRun : List (Action String Nat) :=
  [.request .simple ["a", "b"] true 0, .arrive "b" ⟨2, 20⟩, .popToken, .popToken, .popped, .poll ["b"], .recvMultipart,
    .eventsDone, .poll [], .adjustTimeout 1, .popToken, .popToken, .popped, .poll [], .waitReturns 1,
    .arrive "a" ⟨1, 10⟩, .waitForTokens [1] 0, .popToken, .popped, .poll ["a"], .recvMultipart, .eventsDone, .poll [],
    .adjustTimeout 1, .popToken, .popped, .waitReturns 1,
    .request (.writeChunks true) ["a"] true (-1), .arrive "a" ⟨3, 1⟩, .popToken, .popped, .poll [], .poll ["a"],
    .recvMultipart, .eventsDone, .adjustTimeout 1, .popToken, .popped, .waitReturns 1,
    .nextToken, .nextReply, .popToken, .popped, .poll [], .arrive "a" ⟨3, 77⟩, .poll ["a"], .recvMultipart, .eventsDone,
    .adjustTimeout 1, .popToken, .popped, .waitReturns 1, .nextReply, .nextToken]

theorem replies_delivered_once_late :
    let s := (run (guard (step some (fun _ => true)) Distinct) .init lateReplyRun).get rfl
    s.readsFor 1 = [("a", 10)] ∧ s.deliveredFor 1 = [("a", 10)] ∧ s.bufferedFor 1 = [] ∧
    s.calls.map (·.entries) = [[(1, none), (2, some ("b", 20))], [(3, some ("a", 1))]] ∧
    s.writes.map (fun a => a.done.map (·.got)) = [[[("a", 77)]]] ∧
    ∀ c ∈ s.calls, c.entries.length = c.servers.length := by
  intro s
  obtain ⟨honce, -, -, hcalls, -⟩ := replies_delivered_once some (fun _ => true) lateReplyRun s (Option.some_get _).symm
  have hdelivered : s.deliveredFor 1 = [("a", 10)] := by
    have h := honce 1
    rw [show s.bufferedFor 1 = [] from rfl, List.append_nil] at h
    exact h.symm
  exact ⟨rfl, hdelivered, rfl, rfl, rfl, fun c hc => (hcalls (by decide) c hc).1⟩

end Client
end FrbL1
