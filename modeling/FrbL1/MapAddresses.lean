import FrbL1.L1Config
/-!
# MapAddresses — network interfaces in addresses

What the constructor of `l1_config` makes of an entry of `rpc_address` or `prometheus_address` whose host is the name of
a network interface.  The host of an rpc address is looked for between the first `//` and the last `:`.  Where the last
`:` is the one before the `//`, the host is right, but what follows it is the address once more (`rewrites_iff`).
-/
namespace FrbL1
namespace Config

open FileUtils (find rfind find_eq_some_iff find_eq rfind_eq_none rfind_append last_of_mem)

structure HasParts (entry a h b : List Char) : Prop where
  eq : entry = a ++ h ++ b

/-- Of an rpc address: the host is behind the first `//`, and before the `:` of the port, if there is one. -/
structure RpcParts (entry a h b : List Char) : Prop extends HasParts entry a h b where
  proto : ∃ scheme, a = scheme ++ "//".toList ∧ ∀ u v, entry = u ++ "//".toList ++ v → scheme.length ≤ u.length
  port  : b = [] ∨ ∃ port, b = ':' :: port ∧ ':' ∉ port

/-- Of a prometheus address: the host is before the first `:`. -/
structure PrometheusParts (entry a h b : List Char) : Prop extends HasParts entry a h b where
  proto : a = []
  port  : ∃ port, b = ':' :: port ∧ ':' ∉ h

/-- **Exactly the host is replaced**, if anything is. -/
def Rewrites (interfaces : List (List Char × List Char)) (Parts : List Char → List Char → List Char → Prop)
    (entry result : List Char) : Prop :=
  result = entry ∨ ∃ a h b ip, Parts a h b ∧ interfaces.lookup h = some ip ∧ result = a ++ ip ++ b

/-- The only `:` are before the first `//`, and the name of an interface is all that is behind it. -/
def WithoutPort (interfaces : List (List Char × List Char)) (entry : List Char) : Prop :=
  ∃ scheme host, find "//".toList entry = some (scheme, host) ∧ ':' ∈ scheme ∧ ':' ∉ host ∧
    (interfaces.lookup host).isSome = true

section
variable {interfaces : List (List Char × List Char)} {entry scheme rest : List Char}

/-! ## The host of an rpc address -/

theorem entry_eq (hproto : find "//".toList entry = some (scheme, rest)) : entry = scheme ++ "//".toList ++ rest :=
  find_eq hproto

theorem mapRpcAddress_port {h port : List Char} (hproto : find "//".toList entry = some (scheme, h ++ ':' :: port))
    (hport : ':' ∉ port) : mapRpcAddress interfaces entry =
      match interfaces.lookup h with
      | some ip => scheme ++ "//".toList ++ ip ++ ':' :: port
      | none    => entry := by
  have hentry : entry = (scheme ++ "//".toList ++ h) ++ ':' :: port := by
    rw [entry_eq hproto, List.append_assoc _ h]
  have hlen : (scheme ++ "//".toList).length = scheme.length + 2 := List.length_append
  have hrfind : rfind ':' entry = some (scheme ++ "//".toList ++ h).length := by
    rw [hentry, rfind_append hport]
  have hhost : substr entry (scheme.length + 2) (scheme ++ "//".toList ++ h).length = h := by
    unfold substr
    rw [List.length_append, hlen, if_pos (Nat.le_add_right _ _), entry_eq hproto, List.drop_left' hlen,
      Nat.add_sub_cancel_left, List.take_left]
  have htake : entry.take (scheme.length + 2) = scheme ++ "//".toList := by
    rw [entry_eq hproto, List.take_left' hlen]
  have hdrop : entry.drop (scheme ++ "//".toList ++ h).length = ':' :: port := by
    rw [hentry, List.drop_left]
  cases hip : interfaces.lookup h <;> simp only [mapRpcAddress, hproto, hrfind, hhost, htake, hdrop, hip]

/-- Without a port, where there is a `:` before the host: the subtraction wraps, and the host is all that follows. -/
theorem mapRpcAddress_noPort {x y host : List Char} (hproto : find "//".toList entry = some (x ++ ':' :: y, host))
    (hy : ':' ∉ y) (hhost : ':' ∉ host) : mapRpcAddress interfaces entry =
      match interfaces.lookup host with
      | some ip => x ++ ':' :: y ++ "//".toList ++ ip ++ ':' :: (y ++ "//".toList ++ host)
      | none    => entry := by
  have hlen : (x ++ ':' :: y ++ "//".toList).length = (x ++ ':' :: y).length + 2 := List.length_append
  have hentry : entry = x ++ ':' :: (y ++ "//".toList ++ host) := by
    rw [entry_eq hproto]
    simp only [List.append_assoc, List.cons_append]
  have hlast : ':' ∉ y ++ "//".toList ++ host := by
    intro h
    rcases List.mem_append.1 h with h | h
    · exact (List.mem_append.1 h).elim hy (by decide)
    · exact hhost h
  have hrfind : rfind ':' entry = some x.length := by
    rw [hentry, rfind_append hlast]
  have hsubstr : substr entry ((x ++ ':' :: y).length + 2) x.length = host := by
    unfold substr
    rw [if_neg (by rw [List.length_append]; omega), entry_eq hproto, List.drop_left' hlen]
  have htake : entry.take ((x ++ ':' :: y).length + 2) = x ++ ':' :: y ++ "//".toList := by
    rw [entry_eq hproto, List.take_left' hlen]
  have hdrop : entry.drop x.length = ':' :: (y ++ "//".toList ++ host) := by
    rw [hentry, List.drop_left]
  cases hip : interfaces.lookup host <;> simp only [mapRpcAddress, hproto, hrfind, hsubstr, htake, hdrop, hip]

theorem mapRpcAddress_plain (h : find "//".toList entry = none ∨ ':' ∉ entry) :
    mapRpcAddress interfaces entry = entry := by
  unfold mapRpcAddress
  rcases h with h | h
  · rw [h]
  · rw [rfind_eq_none h]
    cases find "//".toList entry <;> rfl

theorem rewrites_port {h port : List Char} (hproto : find "//".toList entry = some (scheme, h ++ ':' :: port))
    (hport : ':' ∉ port) : Rewrites interfaces (RpcParts entry) entry (mapRpcAddress interfaces entry) := by
  rw [mapRpcAddress_port hproto hport]
  cases hip : interfaces.lookup h with
  | none => exact .inl rfl
  | some ip =>
    refine .inr ⟨scheme ++ "//".toList, h, ':' :: port, ip, ⟨⟨?_⟩, ?_, .inr ⟨port, rfl, hport⟩⟩, hip, rfl⟩
    · rw [entry_eq hproto, List.append_assoc _ h]
    · exact ⟨scheme, rfl, (find_eq_some_iff.1 hproto).2⟩

theorem not_rewrites_noPort {x y host ip : List Char} (hproto : find "//".toList entry = some (x ++ ':' :: y, host))
    (hy : ':' ∉ y) (hhost : ':' ∉ host) (hip : interfaces.lookup host = some ip) :
    ¬ Rewrites interfaces (RpcParts entry) entry (mapRpcAddress interfaces entry) := by
  rw [mapRpcAddress_noPort hproto hy hhost, hip]
  dsimp only
  rintro (hsame | ⟨a, h, b, ip', hparts, hip', hresult⟩)
  · have hlen := congrArg List.length hsame
    rw [entry_eq hproto] at hlen
    simp only [List.length_append, List.length_cons] at hlen
    omega
  · obtain ⟨scheme, rfl, hfirst⟩ := hparts.proto
    have hparts_eq : find "//".toList entry = some (scheme, h ++ b) :=
      find_eq_some_iff.2 ⟨by rw [hparts.eq, List.append_assoc], hfirst⟩
    rw [hproto] at hparts_eq
    cases hparts_eq
    -- there is no `:` behind the `//`, and so no port
    have hb : b = [] := hparts.port.resolve_right (by
      rintro ⟨port, rfl, -⟩
      exact hhost (List.mem_append_right h (.head _)))
    rw [hb, List.append_nil] at hip hresult
    obtain rfl : ip = ip' := Option.some.inj (hip.symm.trans hip')
    have hlen := congrArg List.length hresult
    simp only [List.length_append, List.length_cons, List.length_nil] at hlen
    omega

theorem rewrites_rpc_iff : Rewrites interfaces (RpcParts entry) entry (mapRpcAddress interfaces entry) ↔
    ¬ WithoutPort interfaces entry := by
  constructor
  · rintro hrewrites ⟨scheme, host, hproto, hscheme, hhost, hkey⟩
    obtain ⟨ip, hip⟩ := Option.isSome_iff_exists.1 hkey
    obtain ⟨x, y, rfl, hy⟩ := last_of_mem hscheme
    exact not_rewrites_noPort hproto hy hhost hip hrewrites
  · intro hport
    cases hproto : find "//".toList entry with
    | none => exact .inl (mapRpcAddress_plain (.inl hproto))
    | some x =>
      obtain ⟨scheme, rest⟩ := x
      by_cases hrest : ':' ∈ rest
      · obtain ⟨h, p, rfl, hp⟩ := last_of_mem hrest
        exact rewrites_port hproto hp
      · by_cases hscheme : ':' ∈ scheme
        · obtain ⟨x, y, rfl, hy⟩ := last_of_mem hscheme
          have hnone : interfaces.lookup rest = none :=
            Option.not_isSome_iff_eq_none.1 (fun hkey => hport ⟨_, rest, hproto, hscheme, hrest, hkey⟩)
          rw [mapRpcAddress_noPort hproto hy hrest, hnone]
          exact .inl rfl
        · refine .inl (mapRpcAddress_plain (.inr ?_))
          rw [entry_eq hproto]
          intro h
          rcases List.mem_append.1 h with h | h
          · exact (List.mem_append.1 h).elim hscheme (by decide)
          · exact hrest h

/-! ## The host of a prometheus address -/

theorem rewrites_prometheus :
    Rewrites interfaces (PrometheusParts entry) entry (mapPrometheusAddress interfaces entry) := by
  unfold mapPrometheusAddress
  cases hport : find ":".toList entry with
  | none => exact .inl rfl
  | some x =>
    obtain ⟨host, port⟩ := x
    dsimp only
    cases hip : interfaces.lookup host with
    | none => exact .inl rfl
    | some ip =>
      have hentry : entry = host ++ ':' :: port := by
        rw [find_eq hport, List.append_assoc]
        rfl
      have hfirst : ':' ∉ host := by
        intro hmem
        obtain ⟨u, v, rfl⟩ := List.append_of_mem hmem
        have hle := (find_eq_some_iff.1 hport).2 u (v ++ ':' :: port) (by rw [hentry]; simp)
        rw [List.length_append, List.length_cons] at hle
        omega
      refine .inr ⟨[], host, ':' :: port, ip, ⟨⟨hentry⟩, rfl, port, rfl, hfirst⟩, hip, ?_⟩
      rw [hentry, List.drop_left]
      rfl

end

/-- **The host of an address is replaced, and nothing else**: of an rpc address exactly if it does not lack the port. -/
theorem rewrites_iff (interfaces : List (List Char × List Char)) (entry : List Char) :
    (Rewrites interfaces (RpcParts entry) entry (mapRpcAddress interfaces entry) ↔ ¬ WithoutPort interfaces entry) ∧
      Rewrites interfaces (PrometheusParts entry) entry (mapPrometheusAddress interfaces entry) :=
  ⟨rewrites_rpc_iff, rewrites_prometheus⟩

/-- `tcp://eno2` becomes `tcp://10.7.100.15://eno2`. -/
theorem not_rewrites_eno2 : ¬ ∀ (interfaces : List (List Char × List Char)) (entry : List Char),
    Rewrites interfaces (RpcParts entry) entry (mapRpcAddress interfaces entry) := by
  intro hall
  refine rewrites_rpc_iff.1 (hall [("eno2".toList, "10.7.100.15".toList)] "tcp://eno2".toList) ?_
  exact ⟨"tcp:".toList, "eno2".toList, by decide, by decide, by decide, by decide⟩

end Config
end FrbL1
