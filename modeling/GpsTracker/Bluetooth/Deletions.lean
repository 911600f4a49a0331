import GpsTracker.Bluetooth.Answers
import GpsTracker.Library.Alternating

/-!
# What `delete_wifi` removes

The command collects the indices of the entries it matched and then uses only
their number: round `i` of the removal loop takes out `list.remove(i)`, the
index `i` of the loop and not the index it had collected. On a list that shrinks
in front of it that takes out the entries at the positions 0, 2, 4, …, as many
as matched (`removeRounds_eq_dropAlternate`); so the entries that go are those
that matched exactly when they stand at these positions (`deletesExactly_iff`).
-/

namespace GpsTracker.Bluetooth

open GpsTracker.Java GpsTracker.Alternating

/-- The request names this entry: its text contains the address. -/
def matched (macAddressArray : JString) (wifiInfo : WifiInfo) : Bool :=
  wifiInfo.macAddress.any (contains macAddressArray)

theorem matching_eq (macAddressArray : JString) (list : List WifiInfo) :
    matching macAddressArray list = list.countP (matched macAddressArray) := rfl

/-- What the removal loop leaves, when it does not run past the end. -/
theorem removeRounds_eq_dropAlternate (m : ℕ) : ∀ (i : ℕ) (list list' : List WifiInfo),
    removeRounds m i list = .ok list' → list' = list.take i ++ dropAlternate m (list.drop i) := by
  induction m with
  | zero =>
    intro i list list' h
    cases h
    rw [dropAlternate_zero, List.take_append_drop]
  | succ m ih =>
    intro i list list' h
    rw [removeRounds, removeAt] at h
    by_cases hi : i < list.length
    · rw [if_pos hi, ok_bind] at h
      rw [ih _ _ _ h, take_append_dropAlternate hi]
    · rw [if_neg hi] at h
      cases h

/-- An entry is matched or kept. -/
theorem length_unmatched_add (macAddressArray : JString) (list : List WifiInfo) :
    (list.filter fun w => !matched macAddressArray w).length + list.countP (matched macAddressArray) = list.length := by
  induction list with
  | nil => rfl
  | cons w list ih =>
    cases hw : matched macAddressArray w with
    | true => simp [hw, ← Nat.add_assoc, ih]
    | false =>
      simp only [hw, Bool.not_false, if_true, List.filter_cons, List.countP_cons, List.length_cons,
        Bool.false_eq_true, if_false]
      omega

theorem removeRounds_error {e : Exn} (m : ℕ) : ∀ (i : ℕ) (list : List WifiInfo),
    removeRounds m i list = .error e → e = .indexOutOfBounds := by
  induction m with
  | zero =>
    intro i list h
    cases h
  | succ m ih =>
    intro i list h
    rw [removeRounds, removeAt] at h
    split_ifs at h with hi
    · exact ih _ _ h
    · cases h
      rfl

/-- The removed entries are the matched ones. -/
theorem removeRounds_matching_iff (macAddressArray : JString) (list : List WifiInfo) :
    removeRounds (matching macAddressArray list) 0 list = .ok (list.filter fun w => !matched macAddressArray w) ↔
      AtEvens (matched macAddressArray) (matching macAddressArray list) list := by
  rw [matching_eq, ← dropAlternate_eq_filter_iff]
  constructor
  · intro h
    simpa using (removeRounds_eq_dropAlternate _ 0 _ _ h).symm
  · intro h
    obtain ⟨list', hlist⟩ := (removeRounds_ok_iff (list.countP (matched macAddressArray)) 0 list).mpr (by
      have := two_mul_le_of_length _ list (by rw [h, length_unmatched_add])
      omega)
    rw [hlist, removeRounds_eq_dropAlternate _ 0 _ _ hlist]
    simpa using h

/-! ### The command -/

/-- The contract of `delete_wifi`: it returns, the matched entries and no others are gone, the
rest as they stood, and the reply says whether there were any. -/
structure DeletesExactly (method : Method Unit) (macAddressArray : JString) (d : Device) : Prop where
  /-- No exception leaves the method. -/
  returns : (call method d).1 = .ok ()
  /-- The list stored afterwards. -/
  stored : (call method d).2.file = .complete (d.file.list.filter fun w => !matched macAddressArray w)
  /-- The code of the one reply. -/
  code : ∃ response, replies method d = [response] ∧
    (response.code = 0 ↔ (call method d).2.file.list.length < d.file.list.length)

/-- All entries have an address, and the matched ones stand at the positions `0, 2, 4, …`. -/
def MatchesAlternate (macAddressArray : JString) (list : List WifiInfo) : Prop :=
  (∀ wifiInfo ∈ list, wifiInfo.macAddress ≠ none) ∧
    AtEvens (matched macAddressArray) (matching macAddressArray list) list

/-- A call that throws does not do it. -/
theorem not_deletesExactly_of_error {method : Method Unit} {macAddressArray : JString} {d d' : Device} {e : Exn}
    (h : call method d = (.error e, d')) : ¬ DeletesExactly method macAddressArray d := by
  intro hexact
  have hreturns := hexact.returns
  rw [h] at hreturns
  cases hreturns

/-- A call that stores a list and replies as `delete_wifi` does it when this is the right list. -/
theorem deletesExactly_of_save {method : Method Unit} {macAddressArray : JString} {gson : Gson} {d : Device}
    {list : List WifiInfo} (hcall : call method d =
      (.ok (), (d.save list).reply gson (.base (deleteResponse (matching macAddressArray d.file.list))))) :
    DeletesExactly method macAddressArray d ↔ list = d.file.list.filter fun w => !matched macAddressArray w := by
  have hfile : (call method d).2.file = .complete list := by
    rw [hcall, file_reply]
    rfl
  constructor
  · intro h
    have hstored := h.stored
    rw [hfile] at hstored
    cases hstored
    rfl
  · rintro rfl
    refine ⟨by rw [hcall], hfile, .base (deleteResponse (matching macAddressArray d.file.list)), ?_, ?_⟩
    · rw [replies, hcall, handed_reply, handed_save, List.drop_left]
    · have hcode := deleteResponse_code (matching macAddressArray d.file.list)
      have hlength := length_unmatched_add macAddressArray d.file.list
      rw [hfile, FenceFile.list, Reply.code, ← not_iff_not, ← ne_eq, hcode, matching_eq]
      omega

theorem deletesExactly_iff_matchesAlternate {newJSONObject : NewJSONObject} {readData macAddressArray : JString}
    {jsonObject : JSONObject} (hobject : newJSONObject readData = some jsonObject)
    (hcmd : Names jsonObject .deleteWifi) (htext : jsonObject.getString "macAddressArray" = .ok macAddressArray)
    (gson : Gson) (d : Device) : DeletesExactly (parseData newJSONObject gson readData) macAddressArray d ↔
      MatchesAlternate macAddressArray d.file.list := by
  have hparse := call_parseData_command hobject hcmd gson d
  rw [Command.run, call_deleteWifi] at hparse
  simp only [htext] at hparse
  rcases needRemoveIndexList_cases macAddressArray d.file.list 0 with
    ⟨hall, indices, hok, hlen⟩ | ⟨⟨w, hw, hnull⟩, herr⟩
  · simp only [hok, hlen] at hparse
    rw [MatchesAlternate, and_iff_right hall, ← removeRounds_matching_iff]
    cases hrounds : removeRounds (matching macAddressArray d.file.list) 0 d.file.list with
    | error e =>
      -- the loop ran past the end
      obtain rfl := removeRounds_error _ _ _ hrounds
      rw [hrounds] at hparse
      exact iff_of_false (not_deletesExactly_of_error hparse) fun h => by cases h
    | ok list =>
      rw [hrounds] at hparse
      rw [deletesExactly_of_save hparse, Except.ok.injEq]
  · -- an entry without an address
    simp only [herr] at hparse
    exact iff_of_false (not_deletesExactly_of_error hparse) fun h => h.1 w hw hnull

/-- **When `delete_wifi` removes what it matched**: the matched entries are the first, the
third, the fifth and so on. -/
theorem deletesExactly_iff (newJSONObject : NewJSONObject) (gson : Gson) (readData macAddressArray : JString)
    (jsonObject : JSONObject) (d : Device) (hobject : newJSONObject readData = some jsonObject)
    (hcmd : Names jsonObject .deleteWifi) (htext : jsonObject.getString "macAddressArray" = .ok macAddressArray) :
    DeletesExactly (parseData newJSONObject gson readData) macAddressArray d ↔
      MatchesAlternate macAddressArray d.file.list :=
  deletesExactly_iff_matchesAlternate hobject hcmd htext gson d

/-- A fence that no request below names. -/
def officeFence : WifiInfo := { homeFence with ssid := some (lit "office"), macAddress := some (lit "cc") }

/-- The fields of a `delete_wifi` request. -/
def deleteFields (macAddressArray : String) : List (String × JSONField) :=
  [("cmd", textField "delete_wifi"), ("macAddressArray", textField macAddressArray)]

/-- The text of such a request. -/
def deleteText (macAddressArray : String) : JString :=
  lit "\x7b\"cmd\":\"delete_wifi\",\"macAddressArray\":\"" ++ lit macAddressArray ++ lit "\"\x7d"

/-- A parser that knows one request. -/
def deleteParser (macAddressArray : String) : NewJSONObject := fun readData =>
  if readData = deleteText macAddressArray then some (.ofFields (deleteFields macAddressArray)) else none

theorem names_deleteParser : deleteParser "aa" (deleteText "aa") = some (.ofFields (deleteFields "aa")) ∧
    Names (.ofFields (deleteFields "aa")) .deleteWifi ∧
    JSONObject.getString (.ofFields (deleteFields "aa")) "macAddressArray" = .ok (lit "aa") :=
  ⟨if_pos rfl, ⟨lit "delete_wifi", rfl, by decide⟩, rfl⟩

theorem deletesExactly_iff_first :
    DeletesExactly (parseData (deleteParser "aa") plainGson (deleteText "aa")) (lit "aa")
        (deviceWith [homeFence, officeFence]) ↔
      MatchesAlternate (lit "aa") [homeFence, officeFence] :=
  deletesExactly_iff (deleteParser "aa") plainGson (deleteText "aa") (lit "aa") (.ofFields (deleteFields "aa"))
    (deviceWith [homeFence, officeFence]) (if_pos rfl) ⟨lit "delete_wifi", rfl, by decide⟩ rfl

/-- A request for the second fence of two removes the first one. -/
theorem not_deletesExactly_second : ¬ ∀ (newJSONObject : NewJSONObject) (gson : Gson)
    (readData macAddressArray : JString) (jsonObject : JSONObject) (d : Device),
    newJSONObject readData = some jsonObject → Names jsonObject .deleteWifi →
    jsonObject.getString "macAddressArray" = .ok macAddressArray →
    DeletesExactly (parseData newJSONObject gson readData) macAddressArray d := by
  intro h
  obtain ⟨hobject, hcmd, htext⟩ := names_deleteParser
  have hsecond := h (deleteParser "aa") plainGson _ _ _ (deviceWith [officeFence, homeFence]) hobject hcmd htext
  rw [deletesExactly_iff_matchesAlternate hobject hcmd htext] at hsecond
  exact absurd ((hsecond.2 1 homeFence rfl).mp (by decide)) (by decide)

end GpsTracker.Bluetooth
