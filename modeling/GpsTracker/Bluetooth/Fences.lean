import GpsTracker.Bluetooth.Answers
import Mathlib.Data.List.Nodup

/-!
# The fences over a history of commands

`update_wifi` stops at the first entry with the address of the request.
Whether that is enough depends on what the earlier commands stored: `add_wifi`
does not look for an existing entry, so an address can be stored twice. After
any history, an `update_wifi` answered with code 0 reaches its whole target
exactly when the later entries of that address already carry the request; and it
always does in a history where every `add_wifi` came with a new address
(`update_reaches_of_freshRun`).
-/

namespace GpsTracker.Bluetooth

open GpsTracker.Java

/-! ### One update -/

/-- The entry carries the four values of the request. -/
def Carries (item wifiInfo : WifiInfo) : Prop :=
  item.ssid = wifiInfo.ssid ∧ item.pwd = wifiInfo.pwd ∧ item.penName = wifiInfo.penName ∧ item.type = wifiInfo.type

instance (item wifiInfo : WifiInfo) : Decidable (Carries item wifiInfo) := inferInstanceAs (Decidable (_ ∧ _))

/-- What an update is for: every entry of the address carries the request, and nothing
else changes. -/
def wholeUpdate (wifiInfo : WifiInfo) (list : List WifiInfo) : List WifiInfo :=
  list.map fun item => if item.macAddress = wifiInfo.macAddress then item.assign wifiInfo else item

/-- Past the first entry of the address, every entry of it carries the request already. -/
def LaterCarry (wifiInfo : WifiInfo) (list : List WifiInfo) : Prop :=
  ∀ item ∈ (list.dropWhile fun item => item.macAddress ≠ wifiInfo.macAddress).tail,
    item.macAddress = wifiInfo.macAddress → Carries item wifiInfo

theorem assign_eq_self_iff (item wifiInfo : WifiInfo) :
    item.assign wifiInfo = item ↔ Carries item wifiInfo := by
  cases item
  cases wifiInfo
  simp only [WifiInfo.assign, Carries, WifiInfo.mk.injEq, true_and]
  constructor
  · rintro ⟨h1, h2, h3, h4⟩
    exact ⟨h1.symm, h2.symm, h3.symm, h4.symm⟩
  · rintro ⟨h1, h2, h3, h4⟩
    exact ⟨h1.symm, h2.symm, h3.symm, h4.symm⟩

/-- The loop changes the first entry of the address. -/
theorem updateFirst_true {wifiInfo : WifiInfo} {list list' : List WifiInfo}
    (h : updateFirst wifiInfo list = .ok (list', true)) : ∃ before item after, list = before ++ item :: after ∧
      (∀ x ∈ before, x.macAddress ≠ wifiInfo.macAddress) ∧ item.macAddress = wifiInfo.macAddress ∧
      list' = before ++ item.assign wifiInfo :: after := by
  induction list generalizing list' with
  | nil => cases h
  | cons item list ih =>
    rw [updateFirst] at h
    cases hitem : item.macAddress with
    | none =>
      rw [hitem] at h
      cases h
    | some macAddress =>
      rw [hitem, deref, ok_bind] at h
      by_cases heq : some macAddress = wifiInfo.macAddress
      · rw [if_pos heq] at h
        cases h
        exact ⟨[], item, list, rfl, fun _ hx => absurd hx List.not_mem_nil, hitem.trans heq, rfl⟩
      · rw [if_neg heq] at h
        cases hrest : updateFirst wifiInfo list with
        | error e =>
          rw [hrest] at h
          cases h
        | ok r =>
          obtain ⟨list'', macAddressExit⟩ := r
          rw [hrest] at h
          cases h
          obtain ⟨before, x, after, rfl, hbefore, hx, rfl⟩ := ih hrest
          refine ⟨item :: before, x, after, rfl, ?_, hx, rfl⟩
          intro y hy
          rcases List.mem_cons.mp hy with rfl | hy
          · rwa [hitem]
          · exact hbefore y hy

/-- Entries are left alone by the whole update when those of the address carry the request. -/
theorem wholeUpdate_eq_self_iff (wifiInfo : WifiInfo) (list : List WifiInfo) :
    wholeUpdate wifiInfo list = list ↔
    ∀ item ∈ list, item.macAddress = wifiInfo.macAddress → Carries item wifiInfo := by
  have hid : wholeUpdate wifiInfo list = list ↔ list.map
      (fun item => if item.macAddress = wifiInfo.macAddress then item.assign wifiInfo else item) = list.map id := by
    rw [List.map_id]
    rfl
  rw [hid, List.map_inj_left]
  refine forall₂_congr fun item _ => ?_
  by_cases hmac : item.macAddress = wifiInfo.macAddress
  · rw [if_pos hmac, id, assign_eq_self_iff]
    exact ⟨fun h _ => h, fun h => h hmac⟩
  · rw [if_neg hmac]
    exact ⟨fun _ h => absurd h hmac, fun _ => rfl⟩

/-- One pass of the loop is the whole update exactly when the later entries carry the
request. -/
theorem updateFirst_whole_iff {wifiInfo : WifiInfo} {list list' : List WifiInfo}
    (h : updateFirst wifiInfo list = .ok (list', true)) :
    list' = wholeUpdate wifiInfo list ↔ LaterCarry wifiInfo list := by
  obtain ⟨before, item, after, rfl, hbefore, hitem, rfl⟩ := updateFirst_true h
  have hdrop : ((before ++ item :: after).dropWhile fun x => x.macAddress ≠ wifiInfo.macAddress).tail = after := by
    rw [List.dropWhile_append_of_pos fun x hx => decide_eq_true (hbefore x hx), List.dropWhile_cons,
      if_neg (by rw [hitem]; simp)]
    rfl
  have hwhole : wholeUpdate wifiInfo (before ++ item :: after)
      = before ++ item.assign wifiInfo :: wholeUpdate wifiInfo after := by
    rw [wholeUpdate, List.map_append, ← wholeUpdate,
      (wholeUpdate_eq_self_iff wifiInfo before).mpr fun x hx hmac => absurd hmac (hbefore x hx),
      List.map_cons, if_pos hitem, ← wholeUpdate]
  rw [hwhole, LaterCarry, hdrop, List.append_cancel_left_eq, List.cons.injEq, ← wholeUpdate_eq_self_iff]
  exact ⟨fun heq => heq.2.symm, fun heq => ⟨rfl, heq.symm⟩⟩

/-! ### Histories -/

/-- The device after one command text. -/
def received (newJSONObject : NewJSONObject) (gson : Gson) (d : Device) (readData : JString) : Device :=
  (call (parseData newJSONObject gson readData) d).2

/-- The device after a history of command texts. -/
def afterHistory (newJSONObject : NewJSONObject) (gson : Gson) (history : List JString) (d : Device) : Device :=
  history.foldl (received newJSONObject gson) d

/-- A device that never stored a fence. -/
def emptyDevice (connected : Bool) : Device :=
  { file := .absent, connected := connected, handed := [], written := [] }

/-- An update answered with code 0 has stored what the loop left. -/
theorem received_update {newJSONObject : NewJSONObject} {gson : Gson} {readData : JString}
    {jsonObject : JSONObject} {wifiInfo : WifiInfo} {d : Device}
    (hobject : newJSONObject readData = some jsonObject) (hcmd : Names jsonObject .updateWifi)
    (hread : readWifiInfo jsonObject = .ok wifiInfo)
    (hzero : ∃ response ∈ replies (parseData newJSONObject gson readData) d, response.code = 0) :
    updateFirst wifiInfo d.file.list = .ok ((received newJSONObject gson d readData).file.list, true) := by
  obtain ⟨response, hmem, hcode⟩ := hzero
  have hcall := call_updateWifi gson jsonObject d
  have hparse := call_parseData_command hobject hcmd gson d
  rw [replies] at hmem
  rw [received]
  simp only [hread] at hcall
  rw [hparse, caught_snd, Command.run, hcall] at hmem ⊢
  split_ifs at hmem ⊢ with h
  · cases hloop : updateFirst wifiInfo d.file.list with
    | error e =>
      rw [hloop] at hmem
      simp only [List.drop_length, List.not_mem_nil] at hmem
    | ok r =>
      obtain ⟨list, macAddressExit⟩ := r
      rw [hloop] at hmem
      cases macAddressExit with
      | false =>
        simp only [handed_reply, List.drop_left, List.mem_singleton] at hmem
        rw [hmem] at hcode
        cases hcode
      | true =>
        simp only [file_reply, file_save]
  · simp only [handed_reply, List.drop_left, List.mem_singleton] at hmem
    rw [hmem] at hcode
    exact absurd hcode h

/-- **After any history, an update answered with code 0 reaches its whole target exactly
when the later entries of the address carry the request already.** -/
theorem update_reaches_iff (newJSONObject : NewJSONObject) (gson : Gson) (connected : Bool)
    (history : List JString) (readData : JString) (jsonObject : JSONObject) (wifiInfo : WifiInfo)
    (hobject : newJSONObject readData = some jsonObject) (hcmd : Names jsonObject .updateWifi)
    (hread : readWifiInfo jsonObject = .ok wifiInfo)
    (hzero : ∃ response ∈ replies (parseData newJSONObject gson readData)
      (afterHistory newJSONObject gson history (emptyDevice connected)), response.code = 0) :
    (received newJSONObject gson (afterHistory newJSONObject gson history (emptyDevice connected)) readData).file.list
        = wholeUpdate wifiInfo (afterHistory newJSONObject gson history (emptyDevice connected)).file.list ↔
      LaterCarry wifiInfo (afterHistory newJSONObject gson history (emptyDevice connected)).file.list :=
  updateFirst_whole_iff (received_update hobject hcmd hread hzero)

/-- A parser that knows an `add_wifi` and an `update_wifi` request of one address. -/
def twoRequests : NewJSONObject := fun readData =>
  (parserOf "add_wifi" "12345678" "aa" 3 readData).or (parserOf "update_wifi" "87654321" "aa" 3 readData)

/-- The request of that update. -/
def newPassword : WifiInfo := { homeFence with pwd := some (lit "87654321") }

theorem update_reaches_iff_added_once :
    (received twoRequests plainGson (afterHistory twoRequests plainGson [requestText "add_wifi" "12345678" "aa" 3]
        (emptyDevice true)) (requestText "update_wifi" "87654321" "aa" 3)).file.list
      = wholeUpdate newPassword (afterHistory twoRequests plainGson [requestText "add_wifi" "12345678" "aa" 3]
        (emptyDevice true)).file.list ↔
    LaterCarry newPassword (afterHistory twoRequests plainGson [requestText "add_wifi" "12345678" "aa" 3]
        (emptyDevice true)).file.list :=
  update_reaches_iff _ _ _ _ _ (.ofFields (requestFields "update_wifi" "87654321" "aa" 3)) _ (by rfl)
    ⟨lit "update_wifi", rfl, by decide⟩ rfl (by decide)

/-- The same `add_wifi` twice, then the update: the second entry keeps the old password. -/
theorem not_update_reaches_added_twice : ¬ ∀ (newJSONObject : NewJSONObject) (gson : Gson) (connected : Bool)
    (history : List JString) (readData : JString) (jsonObject : JSONObject) (wifiInfo : WifiInfo),
    newJSONObject readData = some jsonObject → Names jsonObject .updateWifi → readWifiInfo jsonObject = .ok wifiInfo →
    (∃ response ∈ replies (parseData newJSONObject gson readData)
      (afterHistory newJSONObject gson history (emptyDevice connected)), response.code = 0) →
    (received newJSONObject gson (afterHistory newJSONObject gson history (emptyDevice connected)) readData).file.list
      = wholeUpdate wifiInfo (afterHistory newJSONObject gson history (emptyDevice connected)).file.list := by
  intro h
  have htwice := h twoRequests plainGson true
    [requestText "add_wifi" "12345678" "aa" 3, requestText "add_wifi" "12345678" "aa" 3]
    (requestText "update_wifi" "87654321" "aa" 3) (.ofFields (requestFields "update_wifi" "87654321" "aa" 3)) newPassword
    (by rfl) ⟨lit "update_wifi", rfl, by decide⟩ rfl (by decide)
  exact absurd htwice (by decide)

/-! ### Fresh addresses -/

/-- No address is stored twice. -/
def Distinct (list : List WifiInfo) : Prop := (list.map WifiInfo.macAddress).Nodup

/-- An `add_wifi` brings an address that is not stored. -/
def FreshAdd (newJSONObject : NewJSONObject) (d : Device) (readData : JString) : Prop :=
  ∀ wifiInfo, AddRequest newJSONObject readData wifiInfo →
    wifiInfo.macAddress ∉ d.file.list.map WifiInfo.macAddress

/-- Every `add_wifi` of the history does. -/
def FreshRun (newJSONObject : NewJSONObject) (gson : Gson) : List JString → Device → Prop
  | [], _ => True
  | readData :: history, d => FreshAdd newJSONObject d readData ∧
      FreshRun newJSONObject gson history (received newJSONObject gson d readData)

theorem removeRounds_sublist (m : ℕ) :
    ∀ (i : ℕ) (list list' : List WifiInfo), removeRounds m i list = .ok list' →
    list'.Sublist list := by
  induction m with
  | zero =>
    intro i list list' h
    cases h
    exact List.Sublist.refl _
  | succ m ih =>
    intro i list list' h
    rw [removeRounds, removeAt] at h
    split_ifs at h with hi
    · exact (ih _ _ _ h).trans (List.eraseIdx_sublist list i)
    · cases h

theorem map_macAddress_updateFirst {wifiInfo : WifiInfo} {list list' : List WifiInfo}
    (h : updateFirst wifiInfo list = .ok (list', true)) :
    list'.map WifiInfo.macAddress = list.map WifiInfo.macAddress := by
  obtain ⟨before, item, after, rfl, -, -, rfl⟩ := updateFirst_true h
  rw [List.map_append, List.map_append, List.map_cons, List.map_cons]
  rfl

/-- One command keeps the addresses distinct. -/
theorem distinct_received {newJSONObject : NewJSONObject} {d : Device} {readData : JString} (gson : Gson)
    (hd : Distinct d.file.list) (hfresh : FreshAdd newJSONObject d readData) :
    Distinct (received newJSONObject gson d readData).file.list := by
  have heffect := effect_parseData newJSONObject gson readData d
  rw [← received] at heffect
  generalize received newJSONObject gson d readData = d' at heffect
  cases heffect with
  | silent => exact hd
  | answered response =>
    rw [file_reply]
    exact hd
  | added wifiInfo hadded _ =>
    rw [file_reply, file_save, Distinct, List.map_append]
    exact List.Nodup.append hd (List.nodup_singleton _) (List.disjoint_singleton.mpr (hfresh wifiInfo hadded))
  | deleted removed list hrounds =>
    rw [file_reply, file_save]
    exact List.Nodup.sublist ((removeRounds_sublist _ _ _ _ hrounds).map _) hd
  | updated wifiInfo list hloop _ =>
    rw [file_reply, file_save, Distinct, map_macAddress_updateFirst hloop]
    exact hd

theorem distinct_afterHistory {newJSONObject : NewJSONObject} {gson : Gson} (history : List JString) :
    ∀ d : Device, Distinct d.file.list → FreshRun newJSONObject gson history d →
      Distinct (afterHistory newJSONObject gson history d).file.list := by
  induction history with
  | nil => exact fun d hd _ => hd
  | cons readData history ih =>
    rintro d hd ⟨hfresh, hrun⟩
    exact ih _ (distinct_received gson hd hfresh) hrun

theorem laterCarry_of_distinct {list : List WifiInfo} (wifiInfo : WifiInfo) (h : Distinct list) :
    LaterCarry wifiInfo list := by
  intro item hitem hmac
  cases hdrop : list.dropWhile fun item => item.macAddress ≠ wifiInfo.macAddress with
  | nil =>
    rw [hdrop] at hitem
    exact absurd hitem List.not_mem_nil
  | cons first rest =>
    -- the loop stops at `first`, so it has the address too
    have hfirst : first.macAddress = wifiInfo.macAddress := by
      have := List.head?_dropWhile_not (fun item => decide (item.macAddress ≠ wifiInfo.macAddress)) list
      rw [hdrop] at this
      simpa using this
    have hnodup : Distinct (first :: rest) := by
      rw [← hdrop]
      exact List.Nodup.sublist ((List.dropWhile_sublist _).map _) h
    rw [hdrop] at hitem
    rw [Distinct, List.map_cons, List.nodup_cons, hfirst, ← hmac] at hnodup
    exact absurd (List.mem_map_of_mem hitem) hnodup.1

/-- **When every `add_wifi` brought a new address, an update reaches its whole target.** -/
theorem update_reaches_of_freshRun {newJSONObject : NewJSONObject} {gson : Gson} {connected : Bool}
    {history : List JString} {readData : JString} {jsonObject : JSONObject} {wifiInfo : WifiInfo}
    (hfresh : FreshRun newJSONObject gson history (emptyDevice connected))
    (hobject : newJSONObject readData = some jsonObject) (hcmd : Names jsonObject .updateWifi)
    (hread : readWifiInfo jsonObject = .ok wifiInfo)
    (hzero : ∃ response ∈ replies (parseData newJSONObject gson readData)
      (afterHistory newJSONObject gson history (emptyDevice connected)), response.code = 0) :
    (received newJSONObject gson (afterHistory newJSONObject gson history (emptyDevice connected)) readData).file.list
      = wholeUpdate wifiInfo (afterHistory newJSONObject gson history (emptyDevice connected)).file.list :=
  (updateFirst_whole_iff (received_update hobject hcmd hread hzero)).mpr
    (laterCarry_of_distinct wifiInfo (distinct_afterHistory history _ List.nodup_nil hfresh))

end GpsTracker.Bluetooth
