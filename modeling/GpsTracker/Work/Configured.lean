import GpsTracker.Work.WifiAdmin
import Mathlib.Data.List.Nodup

/-!
# Which configured network is removed

`isExsits` walks the scan results and, where it finds the name, takes the
configured network at the same index: two lists of `WifiManager` that have
nothing to do with each other. The last hit counts, and the walk ends at the
first scan result without a name and at the first hit that has no configured
network at its index (`isExsits_cases`). So `createWifiInfo` removes the network
of that name, and no other, exactly when the network at the last hit has it, or
when there is no hit and no such network (`removesOwn_iff`).
-/

namespace GpsTracker.Work

open GpsTracker.Java

/-- A configured network. -/
structure ConfiguredNetwork where
  /-- `networkId`. -/
  networkId : ℤ
  /-- `SSID`, in quotes unless it is no text. -/
  SSID : Option JString
  deriving DecidableEq, Repr

/-- What `getConfiguredNetworks` returns: each network under an id of its own. -/
structure ConfiguredNetworks where
  /-- The networks. -/
  networks : List ConfiguredNetwork
  /-- Their ids are different. -/
  nodup : (networks.map ConfiguredNetwork.networkId).Nodup

/-- The networks of a list that may be null. -/
def configured (saved : Option ConfiguredNetworks) : List ConfiguredNetwork :=
  (saved.map ConfiguredNetworks.networks).getD []

/-- `startScan`: the names found, and the configured networks, which `WifiAdmin` uses by
their ids. -/
def scanned (scan : List (Option JString)) (saved : Option ConfiguredNetworks) : WifiAdmin where
  mWifiList := scan
  mWifiConfigurations := saved.map fun s => s.networks.map ConfiguredNetwork.networkId

/-! ### The walk -/

/-- The walk comes to a scan result of this name with a configured network at its index, of
which there are `n`. -/
def Hit (scan : List (Option JString)) (n : ℕ) (ssid : Option JString) (i : ℕ) : Prop :=
  i < n ∧ (∃ name, scan[i]? = some (some name) ∧ some name = ssid) ∧ none ∉ scan.take i

/-- The last one. -/
def LastHit (scan : List (Option JString)) (n : ℕ) (ssid : Option JString) (i : ℕ) : Prop :=
  Hit scan n ssid i ∧ ∀ j, Hit scan n ssid j → j ≤ i

theorem hit_cons_succ {name : JString} {scan : List (Option JString)} {n : ℕ} {ssid : Option JString} {i : ℕ} :
    Hit (some name :: scan) (n + 1) ssid (i + 1) ↔ Hit scan n ssid i := by
  simp [Hit]

theorem lastHit_cons_succ {name : JString} {scan : List (Option JString)} {n : ℕ}
    {ssid : Option JString} {i : ℕ} (h : LastHit scan n ssid i) :
    LastHit (some name :: scan) (n + 1) ssid (i + 1) := by
  refine ⟨hit_cons_succ.mpr h.1, fun j hj => ?_⟩
  cases j with
  | zero => exact Nat.zero_le _
  | succ j => exact Nat.succ_le_succ (h.2 j (hit_cons_succ.mp hj))

theorem not_hit_of_no_network {scan : List (Option JString)} {ssid : Option JString} (i : ℕ) :
    ¬ Hit scan 0 ssid i :=
  fun h => Nat.not_lt_zero i h.1

/-- A scan result without a name ends the walk. -/
theorem not_hit_of_no_name {scan : List (Option JString)} {n : ℕ} {ssid : Option JString} (i : ℕ) :
    ¬ Hit (none :: scan) n ssid i := by
  rintro ⟨-, ⟨name, hname, -⟩, hnone⟩
  cases i with
  | zero => cases hname
  | succ i => simp at hnone

/-- A scan result of another name is no hit. -/
theorem exists_of_hit_cons {name : JString} {scan : List (Option JString)} {n : ℕ} {ssid : Option JString}
    (hssid : some name ≠ ssid) {j : ℕ} (h : Hit (some name :: scan) n ssid j) :
    ∃ i, j = i + 1 ∧ Hit scan (n - 1) ssid i := by
  cases j with
  | zero =>
    obtain ⟨-, ⟨name', hname, hs⟩, -⟩ := h
    cases hname
    exact absurd hs hssid
  | succ i =>
    cases n with
    | zero => exact absurd h (not_hit_of_no_network _)
    | succ n => exact ⟨i, rfl, hit_cons_succ.mp h⟩

/-- The walk from index `k` on, with the ids of the configured networks from there on. -/
theorem isExsitsFrom_cases (mWifiConfigurations : Option (List ℤ)) (ssid : Option JString) :
    ∀ (scan : List (Option JString)) (k : ℕ) (ids : List ℤ) (config : Option ℤ),
      (mWifiConfigurations.getD []).drop k = ids →
      (∃ i, LastHit scan ids.length ssid i ∧ isExsitsFrom mWifiConfigurations ssid k scan config = ids[i]?) ∨
        ((∀ i, ¬ Hit scan ids.length ssid i) ∧ isExsitsFrom mWifiConfigurations ssid k scan config = config) := by
  intro scan
  induction scan with
  | nil =>
    intro k ids config _
    refine Or.inr ⟨?_, rfl⟩
    rintro i ⟨-, ⟨name, hname, -⟩, -⟩
    simp at hname
  | cons name scan ih =>
    intro k ids config hids
    have hat : (mWifiConfigurations.bind fun configurations => configurations[k]?) = ids.head? := by
      rw [← hids, List.head?_drop]
      cases mWifiConfigurations <;> rfl
    have htail : (mWifiConfigurations.getD []).drop (k + 1) = ids.tail := by
      rw [← hids, List.tail_drop]
    cases name with
    | none => exact Or.inr ⟨not_hit_of_no_name, rfl⟩
    | some name =>
      rw [isExsitsFrom, hat]
      by_cases hssid : some name = ssid
      · rw [if_pos hssid]
        cases ids with
        | nil =>
          -- a hit outside the configured networks ends the walk too
          exact Or.inr ⟨not_hit_of_no_network, rfl⟩
        | cons networkId ids =>
          simp only [List.head?_cons, List.length_cons]
          rcases ih (k + 1) ids (some networkId) htail with ⟨i, hi, hr⟩ | ⟨hnone, hr⟩
          · exact Or.inl ⟨i + 1, lastHit_cons_succ hi, hr⟩
          · refine Or.inl ⟨0, ⟨⟨Nat.zero_lt_succ _, ⟨name, rfl, hssid⟩, by simp⟩, fun j hj => ?_⟩, hr⟩
            cases j with
            | zero => exact le_rfl
            | succ j => exact absurd (hit_cons_succ.mp hj) (hnone j)
      · rw [if_neg hssid]
        rcases ih (k + 1) ids.tail config htail with ⟨i, hi, hr⟩ | ⟨hnone, hr⟩
        · cases ids with
          | nil => exact absurd hi.1 (not_hit_of_no_network i)
          | cons networkId ids => exact Or.inl ⟨i + 1, lastHit_cons_succ hi, hr⟩
        · refine Or.inr ⟨fun j hj => ?_, hr⟩
          obtain ⟨i, -, hi⟩ := exists_of_hit_cons hssid hj
          exact hnone i (by rwa [List.length_tail])

/-- **What `isExsits` finds**: the id at the last hit, or nothing. -/
theorem isExsits_cases (scan : List (Option JString)) (saved : Option ConfiguredNetworks)
    (ssid : Option JString) :
    (∃ i network, LastHit scan (configured saved).length ssid i ∧ (configured saved)[i]? = some network ∧
      (scanned scan saved).isExsits ssid = some network.networkId) ∨
    ((∀ i, ¬ Hit scan (configured saved).length ssid i) ∧ (scanned scan saved).isExsits ssid = none) := by
  have hids : ((scanned scan saved).mWifiConfigurations.getD []).drop 0 =
      (configured saved).map ConfiguredNetwork.networkId := by
    cases saved <;> rfl
  rcases isExsitsFrom_cases _ ssid scan 0 _ none hids with ⟨i, hi, hr⟩ | ⟨hnone, hr⟩
  · rw [List.length_map] at hi
    have hlt : i < (configured saved).length := hi.1.1
    refine Or.inl ⟨i, (configured saved)[i], hi, List.getElem?_eq_getElem hlt, hr.trans ?_⟩
    rw [List.getElem?_map, List.getElem?_eq_getElem hlt]
    rfl
  · rw [List.length_map] at hnone
    exact Or.inr ⟨hnone, hr⟩

/-! ### The network that is removed -/

/-- The configured network is the one of this name. -/
def Named (s : JString) (network : ConfiguredNetwork) : Prop := network.SSID = some (quoted (some s))

/-- `createWifiInfo` asks to remove a network only if it is a configured one of this name, and
if there is one it asks to remove one. -/
structure RemovesOwn (scan : List (Option JString)) (saved : Option ConfiguredNetworks) (s : JString)
    (Password : Option JString) (type : JInt) : Prop where
  /-- No other network is removed. -/
  only : ∀ networkId, ((scanned scan saved).createWifiInfo (some s) Password type).2 = some networkId →
    ∃ network ∈ configured saved, network.networkId = networkId ∧ Named s network
  /-- A network of this name is. -/
  removed : (∃ network ∈ configured saved, Named s network) → ∃ network ∈ configured saved, Named s network ∧
    ((scanned scan saved).createWifiInfo (some s) Password type).2 = some network.networkId

/-- The network at the last hit is the one of this name, and without a hit there is none. -/
structure Aligned (scan : List (Option JString)) (saved : Option ConfiguredNetworks) (s : JString) : Prop where
  /-- The last hit. -/
  last : ∀ i, LastHit scan (configured saved).length (some s) i →
    ∃ network, (configured saved)[i]? = some network ∧ Named s network
  /-- No hit. -/
  absent : (∀ i, ¬ Hit scan (configured saved).length (some s) i) → ∀ network ∈ configured saved, ¬ Named s network

/-- A network is determined by its id. -/
theorem eq_of_networkId {saved : Option ConfiguredNetworks} {a b : ConfiguredNetwork}
    (ha : a ∈ configured saved) (hb : b ∈ configured saved)
    (h : a.networkId = b.networkId) : a = b := by
  cases saved with
  | none => cases ha
  | some s => exact List.inj_on_of_nodup_map s.nodup ha hb h

theorem lastHit_unique {scan : List (Option JString)} {n : ℕ} {ssid : Option JString} {i j : ℕ}
    (hi : LastHit scan n ssid i) (hj : LastHit scan n ssid j) : i = j :=
  le_antisymm (hj.2 i hi.1) (hi.2 j hj.1)

/-- **When `createWifiInfo` removes the network of its own name and no other.** -/
theorem removesOwn_iff (scan : List (Option JString)) (saved : Option ConfiguredNetworks) (s : JString)
    (Password : Option JString) (type : JInt) : RemovesOwn scan saved s Password type ↔ Aligned scan saved s := by
  have hcall : ((scanned scan saved).createWifiInfo (some s) Password type).2 =
      (scanned scan saved).isExsits (some s) := rfl
  rcases isExsits_cases scan saved (some s) with ⟨i, network, hi, hat, hr⟩ | ⟨hnone, hr⟩
  · have hmem := List.mem_of_getElem? hat
    constructor
    · intro h
      refine ⟨fun j hj => ?_, fun habsent => absurd hi.1 (habsent i)⟩
      obtain rfl := lastHit_unique hi hj
      obtain ⟨own, hown, hid, hnamed⟩ := h.only network.networkId (hcall.trans hr)
      exact ⟨network, hat, eq_of_networkId hown hmem hid ▸ hnamed⟩
    · intro h
      obtain ⟨own, hown, hnamed⟩ := h.last i hi
      obtain rfl := Option.some.inj (hat.symm.trans hown)
      refine ⟨fun networkId hremoved => ⟨network, hmem, ?_, hnamed⟩,
        fun _ => ⟨network, hmem, hnamed, hcall.trans hr⟩⟩
      exact Option.some.inj ((hcall.trans hr).symm.trans hremoved)
  · constructor
    · intro h
      refine ⟨fun i hi => absurd hi.1 (hnone i), fun _ network hmem hnamed => ?_⟩
      obtain ⟨own, -, -, hremoved⟩ := h.removed ⟨network, hmem, hnamed⟩
      rw [hcall, hr] at hremoved
      cases hremoved
    · intro h
      refine ⟨fun networkId hremoved => ?_, ?_⟩
      · rw [hcall, hr] at hremoved
        cases hremoved
      · rintro ⟨network, hmem, hnamed⟩
        exact absurd hnamed (h.absent hnone network hmem)

/-- Two saved networks, in the order of their ids. -/
def homeOffice : ConfiguredNetworks where
  networks := [⟨1, some (lit "\"home\"")⟩, ⟨2, some (lit "\"office\"")⟩]
  nodup := by decide

/-- With the scan results in the other order, configuring `home` removes `office`. -/
theorem not_removesOwn_home :
    ¬ ∀ (scan : List (Option JString)) (saved : Option ConfiguredNetworks) (s : JString)
    (Password : Option JString) (type : JInt), RemovesOwn scan saved s Password type := by
  intro h
  obtain ⟨network, hmem, hid, hnamed⟩ :=
    (h [some (lit "office"), some (lit "home")] (some homeOffice) (lit "home") (some (lit "12345678")) 3).only 2
      (by decide)
  have hoffice : network = ⟨2, some (lit "\"office\"")⟩ := by
    simp only [configured, homeOffice, Option.map_some, Option.getD_some, List.mem_cons, List.not_mem_nil,
      or_false] at hmem
    rcases hmem with rfl | rfl
    · exact absurd hid (by decide)
    · rfl
  rw [hoffice] at hnamed
  exact absurd hnamed (by unfold Named; decide)

end GpsTracker.Work
