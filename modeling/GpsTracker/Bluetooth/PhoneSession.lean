import GpsTracker.Bluetooth.PhoneRequests

/-!
# One phone and its fences

The activity of the phone has four buttons, and keeps a password while it lives. Every
request that names a fence names it by the address of the phone itself. So all fences
of a phone have one address, and the device does not tell them apart: `update_wifi`
changes the first of them, and `delete_wifi` matches all of them.

`View` says what a session comes to, a press at a time: the fences and the replies of
the device are those of the view (`session_shows`). A `delete_wifi` removes the fence
when it is the only one; with two or more its loop runs past the end of the list. So
of two fences of this phone none is ever removed (`session_keeps`), on a device that
has no others: where the fence of another phone is among them, the loop removes some,
perhaps that one.

A press can find the phone without a connection, and then nothing is sent. A request
arrives in one piece; the text field of the activity, which sends what is typed, is
left out.
-/

namespace GpsTracker.Bluetooth

open GpsTracker.Java

/-! ### The buttons -/

/-- A button, what Android says when it is pressed, and the answer of its dialog. -/
inductive Press where
  /-- None: the activity is created again. -/
  | onCreate
  /-- `addWifibutton`. -/
  | add (wifiInfo : ConnectionInfo) (password : Option JString)
  /-- `queryWifibutton`. -/
  | query
  /-- `updateWifibutton`. -/
  | update (wifiInfo : ConnectionInfo) (password : Option JString)
  /-- `deleteWifibutton`. -/
  | delete (wifiInfo : ConnectionInfo)

/-- The object of `queryWifibutton`. -/
def queryObject : TextObject := TextObject.put [] "cmd" (lit "query_wifis")

/-- The object of `deleteWifibutton`. -/
def deleteObject (macAddress : Option JString) : TextObject :=
  (TextObject.put [] "cmd" (lit "delete_wifi")).put "macAddressArray" macAddress

/-- What a press makes of `pwd`, and the object it sends, if any. -/
def Press.run (pwd : JString) : Press → Except Exn (JString × Option TextObject)
  | .onCreate => return ([], none)
  | .add wifiInfo password => do
    let (phone, jsonObject) ← Phone.addWifi { pwd := pwd, wifiInfo := wifiInfo } password
    return (phone.pwd, some jsonObject)
  | .query => return (pwd, some queryObject)
  | .update wifiInfo password => return (pwd, Phone.updateWifi { pwd := pwd, wifiInfo := wifiInfo } password)
  | .delete wifiInfo => return (pwd, some (deleteObject wifiInfo.macAddress))

/-- The address that a press sends. -/
def Press.macAddress : Press → Option JString
  | .onCreate => none
  | .add wifiInfo _ => wifiInfo.macAddress
  | .query => none
  | .update wifiInfo _ => wifiInfo.macAddress
  | .delete wifiInfo => wifiInfo.macAddress

/-- `sendMessage`: the object is sent in `STATE_CONNECTED`. -/
def transmitted (connected : Bool) (request : Option TextObject) : List TextObject :=
  if connected then request.toList else []

/-- What the phone sends in a session, where each press finds it connected or not. An exception is
the end of the app, and the next press finds a new one. -/
def session : JString → List (Press × Bool) → List TextObject
  | _, [] => []
  | pwd, (press, connected) :: presses =>
    match press.run pwd with
    | .ok (pwd, request) => transmitted connected request ++ session pwd presses
    | .error _ => session [] presses

/-! ### What a session comes to -/

/-- The phone's password, and the fences and replies of the device. -/
structure View where
  /-- The password that was typed last. -/
  pwd : JString
  /-- The fences. -/
  fences : List WifiInfo
  /-- What was replied. -/
  replies : List Reply

namespace View

/-- The device has replied, with these fences. -/
def answered (v : View) (fences : List WifiInfo) (response : Reply) : View :=
  { v with fences := fences, replies := v.replies ++ [response] }

/-- The first fence is the one that is changed. -/
def rename (v : View) (wifiInfo : WifiInfo) : View :=
  match v.fences with
  | [] => v.answered [] (.base { code := 3, message := some (lit "macaddress not exist") })
  | first :: rest => v.answered (first.assign wifiInfo :: rest) (.base { code := 0, message := some (lit "success") })

/-- The only fence is the one that is removed; with more there is no reply. -/
def delete (v : View) : View :=
  match v.fences with
  | [] => v.answered [] (.base { code := 1, message := some (lit "macaddress not exist") })
  | [_] => v.answered [] (.base { code := 0, message := some (lit "success") })
  | _ :: _ :: _ => v

/-- A password was asked for. -/
def typed (v : View) (password : Option JString) : View :=
  { v with pwd := if filled password then password.getD v.pwd else v.pwd }

/-- Something happens when the device hears of an address. -/
def hearing (v : View) (connected : Bool) (macAddress : Option JString) (next : JString → View) : View :=
  if connected then macAddress.elim v next else v

/-- A press. -/
def press (v : View) : Press × Bool → View
  | (.onCreate, _) => { v with pwd := [] }
  | (.add wifiInfo password, connected) =>
    if wifiInfo.ssid.length < 2 then { v with pwd := [] }
    else
      (v.typed password).hearing connected wifiInfo.macAddress fun macAddress =>
        (v.typed password).answered
          (v.fences ++ [requestFence wifiInfo.ssid.tail.dropLast (v.typed password).pwd macAddress homePenName])
          (.base { code := 0, message := none })
  | (.query, connected) =>
    if connected then v.answered v.fences (.wifis { code := 0, wifiInfos := v.fences }) else v
  | (.update wifiInfo password, connected) =>
    if filled password then
      v.hearing connected wifiInfo.macAddress fun macAddress =>
        v.rename (requestFence wifiInfo.ssid v.pwd macAddress (password.getD []))
    else v
  | (.delete wifiInfo, connected) => v.hearing connected wifiInfo.macAddress fun _ => v.delete

end View

/-! ### The device on one request -/

variable {asInt : JString → Option JInt} {newJSONObject : NewJSONObject} {print : TextObject → JString}

theorem received_command {request : TextObject} {command : Command}
    (htext : newJSONObject (print request) = some (request.parsed asInt)) (hcmd : Names (request.parsed asInt) command)
    (gson : Gson) (d : Device) :
    received newJSONObject gson d (print request) = (call (command.run gson (request.parsed asInt)) d).2 := by
  rw [received, call_parseData_command htext hcmd, caught_snd]

theorem received_addObject (h3 : asInt (lit "3") = some 3) {ssid pwd macAddress penName : JString}
    (htext : newJSONObject (print (requestObject "add_wifi" ssid pwd (some macAddress) penName)) =
      some ((requestObject "add_wifi" ssid pwd (some macAddress) penName).parsed asInt)) (gson : Gson) (d : Device) :
    received newJSONObject gson d (print (requestObject "add_wifi" ssid pwd (some macAddress) penName)) =
      (d.save (d.file.list ++ [requestFence ssid pwd macAddress penName])).reply gson
        (.base { code := 0, message := none }) := by
  rw [received_command htext (names_add _ _ _ _), Command.run, call_addWifi, readWifiInfo_requestObject h3]
  rfl

theorem received_updateObject (h3 : asInt (lit "3") = some 3) {ssid pwd macAddress penName : JString}
    (htext : newJSONObject (print (requestObject "update_wifi" ssid pwd (some macAddress) penName)) =
      some ((requestObject "update_wifi" ssid pwd (some macAddress) penName).parsed asInt)) (gson : Gson) (d : Device)
    (hown : ∀ fence ∈ d.file.list, fence.macAddress = some macAddress) :
    received newJSONObject gson d (print (requestObject "update_wifi" ssid pwd (some macAddress) penName)) =
      match d.file.list with
      | [] => d.reply gson (.base { code := 3, message := some (lit "macaddress not exist") })
      | first :: rest => (d.save (first.assign (requestFence ssid pwd macAddress penName) :: rest)).reply gson
          (.base { code := 0, message := some (lit "success") }) := by
  rw [received_command htext (names_update _ _ _ _), Command.run, call_updateWifi,
    readWifiInfo_requestObject h3]
  have hcode : (checkWifiInfo (requestFence ssid pwd macAddress penName)).code = 0 := rfl
  simp only [hcode, if_true]
  cases hlist : d.file.list with
  | nil => rfl
  | cons first rest =>
    have hfirst : first.macAddress = some macAddress := hown first (by rw [hlist]; exact List.mem_cons_self)
    have hloop : updateFirst (requestFence ssid pwd macAddress penName) (first :: rest) =
        .ok (first.assign (requestFence ssid pwd macAddress penName) :: rest, true) := by
      have hmac : (requestFence ssid pwd macAddress penName).macAddress = some macAddress := rfl
      rw [updateFirst, hfirst, deref, ok_bind, if_pos hmac.symm]
      rfl
    rw [hloop]

theorem received_queryObject
    (htext : newJSONObject (print queryObject) = some (queryObject.parsed asInt)) (gson : Gson)
    (d : Device) : received newJSONObject gson d (print queryObject) =
      d.reply gson (.wifis { code := 0, wifiInfos := d.file.list }) := by
  have hcmd : Names (queryObject.parsed asInt) .queryWifis := by
    refine ⟨lit "query_wifis", ?_, by decide⟩
    simp [queryObject, TextObject.put, JSONObject.getString, TextObject.parsed, JSONObject.ofFields]
  rw [received_command htext hcmd]
  rfl

theorem deleteObject_some (macAddress : JString) :
    deleteObject (some macAddress) = [("cmd", lit "delete_wifi"), ("macAddressArray", macAddress)] := by
  simp [deleteObject, TextObject.put]

theorem deleteObject_none :
    deleteObject none = [("cmd", lit "delete_wifi")] := by simp [deleteObject, TextObject.put]

theorem names_delete (macAddress : Option JString) :
    Names ((deleteObject macAddress).parsed asInt) .deleteWifi := by
  refine ⟨lit "delete_wifi", ?_, by decide⟩
  cases macAddress with
  | none =>
    rw [deleteObject_none]
    simp [JSONObject.getString, TextObject.parsed, JSONObject.ofFields]
  | some macAddress =>
    rw [deleteObject_some]
    simp [JSONObject.getString, TextObject.parsed, JSONObject.ofFields]

/-- With two entries that match and no other, the loop runs past the end. -/
theorem removeRounds_all (first second : WifiInfo) (rest : List WifiInfo) :
    ∃ e, removeRounds (first :: second :: rest).length 0 (first :: second :: rest) = .error e := by
  cases hrounds : removeRounds (first :: second :: rest).length 0 (first :: second :: rest) with
  | error e => exact ⟨e, rfl⟩
  | ok list =>
    have hle := (removeRounds_ok_iff _ 0 _).mp ⟨list, hrounds⟩
    simp only [List.length_cons] at hle
    omega

theorem received_deleteObject {macAddress : JString}
    (htext : newJSONObject (print (deleteObject (some macAddress))) =
      some ((deleteObject (some macAddress)).parsed asInt)) (gson : Gson) (d : Device)
    (hown : ∀ fence ∈ d.file.list, fence.macAddress = some macAddress) :
    received newJSONObject gson d (print (deleteObject (some macAddress))) =
      match d.file.list with
      | [] => (d.save []).reply gson (.base { code := 1, message := some (lit "macaddress not exist") })
      | [_] => (d.save []).reply gson (.base { code := 0, message := some (lit "success") })
      | _ :: _ :: _ => d := by
  have hstring : ((deleteObject (some macAddress)).parsed asInt).getString "macAddressArray" = .ok macAddress := by
    rw [deleteObject_some]
    simp [JSONObject.getString, TextObject.parsed, JSONObject.ofFields, lit_inj]
  rw [received_command htext (names_delete _), Command.run, call_deleteWifi, hstring]
  have hmatching : matching macAddress d.file.list = d.file.list.length := by
    rw [matching, List.countP_eq_length]
    intro fence hfence
    rw [hown fence hfence, Option.any_some, contains, decide_eq_true_eq]
  rcases needRemoveIndexList_cases macAddress d.file.list 0 with ⟨-, indices, hok, hlen⟩ | ⟨⟨fence, hfence, hnull⟩, -⟩
  · simp only [hok, hlen, hmatching]
    rcases hlist : d.file.list with _ | ⟨first, _ | ⟨second, rest⟩⟩
    · rfl
    · rfl
    · obtain ⟨e, he⟩ := removeRounds_all first second rest
      simp only [he]
  · rw [hown fence hfence] at hnull
    cases hnull

theorem received_deleteObject_none (htext : newJSONObject (print (deleteObject none)) =
      some ((deleteObject none).parsed asInt)) (gson : Gson) (d : Device) :
    received newJSONObject gson d (print (deleteObject none)) = d := by
  have hstring : ((deleteObject none).parsed asInt).getString "macAddressArray" = .error .json := by
    rw [deleteObject_none]
    simp [JSONObject.getString, TextObject.parsed, JSONObject.ofFields, lit_inj]
  rw [received_command htext (names_delete _), Command.run, call_deleteWifi, hstring]

/-! ### Sessions -/

/-- What the device has is what the view says, and all fences have the address of the phone. -/
structure Shows (macAddress : JString) (d : Device) (v : View) : Prop where
  fences : d.file.list = v.fences
  replies : d.handed = v.replies
  own : ∀ fence ∈ v.fences, fence.macAddress = some macAddress

theorem Shows.answered {macAddress : JString} {d d' : Device} {v : View} (h : Shows macAddress d v)
    {fences : List WifiInfo} (hown : ∀ fence ∈ fences, fence.macAddress = some macAddress) {gson : Gson} {response : Reply}
    (hd : d' = d ∧ fences = v.fences ∨ d' = d.save fences) :
    Shows macAddress (d'.reply gson response) (v.answered fences response) := by
  refine ⟨?_, ?_, hown⟩
  · rw [file_reply]
    rcases hd with ⟨rfl, rfl⟩ | rfl
    · exact h.fences
    · rfl
  · rw [handed_reply, View.answered, ← h.replies]
    rcases hd with ⟨rfl, -⟩ | rfl
    · rfl
    · rfl

/-- A name of two characters or more loses the first and the last one. -/
theorem run_add {v : View} {wifiInfo : ConnectionInfo} (hlen : ¬ wifiInfo.ssid.length < 2)
    (password : Option JString) :
    Press.run v.pwd (.add wifiInfo password) = .ok ((v.typed password).pwd,
      some (requestObject "add_wifi" wifiInfo.ssid.tail.dropLast (v.typed password).pwd wifiInfo.macAddress
        homePenName)) := by
  have hpwd : (Phone.afterAdd { pwd := v.pwd, wifiInfo := wifiInfo } password).pwd = (v.typed password).pwd := by
    unfold Phone.afterAdd View.typed
    split_ifs <;> rfl
  have hinner : substring wifiInfo.ssid 1 (wifiInfo.ssid.length - 1) = .ok wifiInfo.ssid.tail.dropLast := by
    rw [substring, if_pos (by omega), ← List.drop_one, List.dropLast_eq_take, List.length_drop, List.drop_take]
    rw [show ((wifiInfo.ssid.length : ℤ) - 1).toNat = wifiInfo.ssid.length - 1 by omega]
    rfl
  simp only [Press.run, Phone.addWifi, wifiInfo_afterAdd, hinner, ← hpwd]
  rfl

theorem run_add_error {pwd : JString} {wifiInfo : ConnectionInfo} (hlen : wifiInfo.ssid.length < 2)
    (password : Option JString) :
    Press.run pwd (.add wifiInfo password) = .error .indexOutOfBounds := by
  have hinner : substring wifiInfo.ssid 1 (wifiInfo.ssid.length - 1) = .error .indexOutOfBounds := by
    rw [substring, if_neg (by omega)]
  simp only [Press.run, Phone.addWifi, wifiInfo_afterAdd, hinner]
  rfl

theorem pwd_hearing {v : View} (connected : Bool) (address : Option JString) {next : JString → View}
    (hnext : ∀ m, (next m).pwd = v.pwd) : (v.hearing connected address next).pwd = v.pwd := by
  rw [View.hearing]
  split_ifs
  · cases address with
    | none => rfl
    | some m => exact hnext m
  · rfl

section Sessions

variable {macAddress : JString} (gson : Gson)

/-- A request that names a fence by the address of the phone, or is not heard. -/
theorem Shows.hearing {d : Device} {v : View} (h : Shows macAddress d v) {connected : Bool}
    {address : Option JString} (haddress : address = none ∨ address = some macAddress)
    {next : JString → View} {request : TextObject}
    (htext : Understood asInt newJSONObject print (transmitted connected (some request)))
    (hnone : newJSONObject (print request) = some (request.parsed asInt) → address = none →
      received newJSONObject gson d (print request) = d)
    (hsome : newJSONObject (print request) = some (request.parsed asInt) → address = some macAddress →
      Shows macAddress (received newJSONObject gson d (print request)) (next macAddress)) :
    Shows macAddress (afterHistory newJSONObject gson ((transmitted connected (some request)).map print) d)
      (v.hearing connected address next) := by
  cases connected with
  | false => exact h
  | true =>
    have hrequest := htext request List.mem_cons_self
    change Shows macAddress (received newJSONObject gson d (print request)) (address.elim v next)
    rcases haddress with rfl | rfl
    · rw [hnone hrequest rfl]
      exact h
    · exact hsome hrequest rfl

variable (asInt newJSONObject print macAddress) in
/-- What the phone and the device make of a press is what the view makes of it. -/
def Mirrored (d : Device) (v : View) (press : Press) (connected : Bool) : Prop :=
  ((∃ e, press.run v.pwd = .error e) ∧ v.press (press, connected) = { v with pwd := [] }) ∨
    ∃ request, press.run v.pwd = .ok ((v.press (press, connected)).pwd, request) ∧
      (Understood asInt newJSONObject print (transmitted connected request) →
        Shows macAddress (afterHistory newJSONObject gson ((transmitted connected request).map print) d)
          (v.press (press, connected)))

variable {d : Device} {v : View}

theorem Shows.add (h3 : asInt (lit "3") = some 3) (h : Shows macAddress d v) {wifiInfo : ConnectionInfo}
    (hmac : wifiInfo.macAddress = none ∨ wifiInfo.macAddress = some macAddress) (password : Option JString)
    (connected : Bool) : Mirrored asInt newJSONObject print macAddress gson d v (.add wifiInfo password) connected := by
  by_cases hlen : wifiInfo.ssid.length < 2
  · exact Or.inl ⟨⟨_, run_add_error hlen password⟩, by rw [View.press, if_pos hlen]⟩
  · have hpress : ((v.typed password).hearing connected wifiInfo.macAddress fun m =>
        (v.typed password).answered
          (v.fences ++ [requestFence wifiInfo.ssid.tail.dropLast (v.typed password).pwd m homePenName])
          (.base { code := 0, message := none })).pwd = (v.typed password).pwd :=
      pwd_hearing connected wifiInfo.macAddress fun _ => rfl
    refine Or.inr ⟨_, by rw [run_add hlen, View.press, if_neg hlen, hpress], fun htext => ?_⟩
    rw [View.press, if_neg hlen]
    have htyped : Shows macAddress d (v.typed password) := ⟨h.fences, h.replies, h.own⟩
    refine htyped.hearing gson hmac htext (fun htext hnone => ?_) fun htext hsome => ?_
    · rw [hnone] at htext ⊢
      exact received_without_address gson (.inl rfl) (names_add _ _ _ _) htext d
    · rw [hsome] at htext ⊢
      rw [received_addObject h3 htext, h.fences]
      refine htyped.answered (fun fence hfence => ?_) (Or.inr rfl)
      rcases List.mem_append.mp hfence with hfence | hfence
      · exact h.own fence hfence
      · rw [List.mem_singleton.mp hfence]
        rfl

theorem Shows.query (h : Shows macAddress d v) (connected : Bool) :
    Mirrored asInt newJSONObject print macAddress gson d v .query connected := by
  refine Or.inr ⟨some queryObject, ?_, fun htext => ?_⟩
  · rw [View.press]
    split_ifs <;> rfl
  · cases connected with
    | false => exact h
    | true =>
      have hquery := received_queryObject (htext queryObject List.mem_cons_self) gson d
      change Shows macAddress (received newJSONObject gson d (print queryObject)) _
      rw [hquery, h.fences]
      exact h.answered h.own (Or.inl ⟨rfl, rfl⟩)

theorem Shows.update (h3 : asInt (lit "3") = some 3) (h : Shows macAddress d v) {wifiInfo : ConnectionInfo}
    (hmac : wifiInfo.macAddress = none ∨ wifiInfo.macAddress = some macAddress) (password : Option JString)
    (connected : Bool) : Mirrored asInt newJSONObject print macAddress gson d v (.update wifiInfo password) connected := by
  by_cases hfilled : filled password = true
  · have hrun : Press.run v.pwd (.update wifiInfo password) = .ok (v.pwd,
        some (requestObject "update_wifi" wifiInfo.ssid v.pwd wifiInfo.macAddress (password.getD []))) := by
      rw [Press.run, Phone.updateWifi, if_pos hfilled]
      rfl
    have hrename (wifiInfo : WifiInfo) : (v.rename wifiInfo).pwd = v.pwd := by
      rw [View.rename]
      split <;> rfl
    refine Or.inr ⟨_, by rw [hrun, View.press, if_pos hfilled, pwd_hearing _ _ fun _ => hrename _], fun htext => ?_⟩
    rw [View.press, if_pos hfilled]
    refine h.hearing gson hmac htext (fun htext hnone => ?_) fun htext hsome => ?_
    · rw [hnone] at htext ⊢
      exact received_without_address gson (.inr rfl) (names_update _ _ _ _) htext d
    · rw [hsome] at htext ⊢
      rw [received_updateObject h3 htext gson d (by rw [h.fences]; exact h.own), h.fences, View.rename]
      have hown := h.own
      cases hfences : v.fences with
      | nil => exact h.answered (List.forall_mem_nil _) (Or.inl ⟨rfl, hfences.symm⟩)
      | cons first rest =>
        rw [hfences] at hown
        refine h.answered (fun fence hfence => ?_) (Or.inr rfl)
        rcases List.mem_cons.mp hfence with rfl | hfence
        · exact hown first List.mem_cons_self
        · exact hown fence (List.mem_cons_of_mem _ hfence)
  · refine Or.inr ⟨none, ?_, fun _ => ?_⟩
    · rw [Press.run, Phone.updateWifi, if_neg hfilled, View.press, if_neg hfilled]
      rfl
    · rw [View.press, if_neg hfilled]
      cases connected <;> exact h

theorem Shows.delete (h : Shows macAddress d v) {wifiInfo : ConnectionInfo}
    (hmac : wifiInfo.macAddress = none ∨ wifiInfo.macAddress = some macAddress) (connected : Bool) :
    Mirrored asInt newJSONObject print macAddress gson d v (.delete wifiInfo) connected := by
  have hdelete : v.delete.pwd = v.pwd := by
    rw [View.delete]
    split <;> rfl
  refine Or.inr ⟨some (deleteObject wifiInfo.macAddress), by rw [View.press, pwd_hearing _ _ fun _ => hdelete]; rfl,
    fun htext => ?_⟩
  refine h.hearing gson hmac htext (fun htext hnone => ?_) fun htext hsome => ?_
  · rw [hnone] at htext ⊢
    exact received_deleteObject_none htext gson d
  · rw [hsome] at htext ⊢
    rw [received_deleteObject htext gson d (by rw [h.fences]; exact h.own), h.fences, View.delete]
    rcases hfences : v.fences with _ | ⟨first, _ | ⟨second, rest⟩⟩
    · exact h.answered (List.forall_mem_nil _) (Or.inr rfl)
    · exact h.answered (List.forall_mem_nil _) (Or.inr rfl)
    · exact h

theorem Shows.press (h3 : asInt (lit "3") = some 3) (h : Shows macAddress d v) (press : Press)
    (connected : Bool) (hmac : press.macAddress = none ∨ press.macAddress = some macAddress) :
    Mirrored asInt newJSONObject print macAddress gson d v press connected := by
  cases press with
  | onCreate =>
    refine Or.inr ⟨none, rfl, fun _ => ?_⟩
    cases connected <;> exact ⟨h.fences, h.replies, h.own⟩
  | add wifiInfo password => exact h.add gson h3 hmac password connected
  | query => exact h.query gson connected
  | update wifiInfo password => exact h.update gson h3 hmac password connected
  | delete wifiInfo => exact h.delete gson hmac connected

theorem Shows.session (h3 : asInt (lit "3") = some 3) (presses : List (Press × Bool))
    (hmac : ∀ press ∈ presses, press.1.macAddress = none ∨ press.1.macAddress = some macAddress) :
    ∀ (d : Device) (v : View), Shows macAddress d v → Understood asInt newJSONObject print (session v.pwd presses) →
      Shows macAddress (afterHistory newJSONObject gson ((session v.pwd presses).map print) d)
        (presses.foldl View.press v) := by
  induction presses with
  | nil => exact fun _ _ h _ => h
  | cons head presses ih =>
    obtain ⟨press, connected⟩ := head
    intro d v h htext
    have hrest := ih fun p hp => hmac p (List.mem_cons_of_mem _ hp)
    have hpress : Mirrored asInt newJSONObject print macAddress gson d v press connected :=
      h.press gson h3 press connected (hmac _ List.mem_cons_self)
    rcases hpress with ⟨⟨e, herror⟩, hview⟩ | ⟨request, hrun, hshows⟩
    · -- the app is gone, and the next one has no password
      simp only [Bluetooth.session, herror, List.foldl_cons, hview] at htext ⊢
      exact hrest d { v with pwd := [] } ⟨h.fences, h.replies, h.own⟩ htext
    · simp only [Bluetooth.session, hrun, List.foldl_cons, List.map_append, afterHistory,
        List.foldl_append] at htext ⊢
      exact hrest _ _ (hshows fun r hr => htext r (List.mem_append_left _ hr))
        fun r hr => htext r (List.mem_append_right _ hr)

end Sessions

/-- **In every session of a phone the fences and the replies of the device are those of the view.** -/
theorem session_shows (gson : Gson) (h3 : asInt (lit "3") = some 3) (macAddress : JString) (pwd : JString)
    (presses : List (Press × Bool))
    (hmac : ∀ press ∈ presses, press.1.macAddress = none ∨ press.1.macAddress = some macAddress) (d : Device)
    (hown : ∀ fence ∈ d.file.list, fence.macAddress = some macAddress)
    (htext : Understood asInt newJSONObject print (session pwd presses)) :
    (afterHistory newJSONObject gson ((session pwd presses).map print) d).file.list =
        (presses.foldl View.press { pwd := pwd, fences := d.file.list, replies := d.handed }).fences ∧
      (afterHistory newJSONObject gson ((session pwd presses).map print) d).handed =
        (presses.foldl View.press { pwd := pwd, fences := d.file.list, replies := d.handed }).replies := by
  have hshows := Shows.session gson h3 presses hmac d { pwd := pwd, fences := d.file.list, replies := d.handed }
    ⟨rfl, rfl, hown⟩ htext
  exact ⟨hshows.fences, hshows.replies⟩

/-- A parser that knows these requests. -/
def parserOfRequests (requests : List TextObject) : NewJSONObject := fun text =>
  (requests.find? fun request => printText request = text).map (TextObject.parsed numberThree)

theorem understood_parserOfRequests {requests : List TextObject}
    (h : ∀ request ∈ requests, requests.find? (fun r => printText r = printText request) = some request) :
    Understood numberThree (parserOfRequests requests) printText requests := by
  intro request hrequest
  rw [parserOfRequests, h request hrequest, Option.map_some]

/-- A fence is added twice and then deleted. -/
def addedTwice : List (Press × Bool) :=
  [(.add homePhone.wifiInfo (some (lit "12345678")), true), (.add homePhone.wifiInfo none, true),
    (.delete homePhone.wifiInfo, true)]

theorem session_shows_added_twice :
    (afterHistory (parserOfRequests (session [] addedTwice)) plainGson ((session [] addedTwice).map printText)
        (emptyDevice true)).file.list =
        (addedTwice.foldl View.press { pwd := [], fences := [], replies := [] }).fences ∧
      (afterHistory (parserOfRequests (session [] addedTwice)) plainGson ((session [] addedTwice).map printText)
        (emptyDevice true)).handed =
        (addedTwice.foldl View.press { pwd := [], fences := [], replies := [] }).replies :=
  session_shows plainGson rfl (lit "aa") [] addedTwice (by decide) (emptyDevice true) (List.forall_mem_nil _)
    (understood_parserOfRequests (by decide))

example : (addedTwice.foldl View.press { pwd := [], fences := [], replies := [] }).replies =
    [.base { code := 0, message := none }, .base { code := 0, message := none }] := by decide

/-! ### Two fences -/

/-- There are the first fence, changed perhaps, and the others as they were, and more behind them. -/
def Keeps (first : WifiInfo) (rest list : List WifiInfo) : Prop :=
  ∃ first' added, list = first' :: rest ++ added ∧ first'.macAddress = first.macAddress

theorem Keeps.press {first : WifiInfo} {rest : List WifiInfo} (hrest : rest ≠ []) {v : View}
    (h : Keeps first rest v.fences) (press : Press × Bool) : Keeps first rest (v.press press).fences := by
  obtain ⟨first', added, hfences, hmac⟩ := h
  have hself : Keeps first rest v.fences := ⟨first', added, hfences, hmac⟩
  have hhearing (v : View) (connected : Bool) (address : Option JString) (next : JString → View)
      (hv : Keeps first rest v.fences) (hnext : ∀ m, Keeps first rest (next m).fences) :
      Keeps first rest (v.hearing connected address next).fences := by
    rw [View.hearing]
    split_ifs
    · cases address with
      | none => exact hv
      | some m => exact hnext m
    · exact hv
  obtain ⟨button, connected⟩ := press
  cases button with
  | onCreate => exact hself
  | add wifiInfo password =>
    rw [View.press]
    split_ifs
    · exact hself
    · refine hhearing _ _ _ _ hself fun m => ?_
      exact ⟨first', added ++ [_], by rw [View.answered, hfences, List.append_assoc], hmac⟩
  | query =>
    rw [View.press]
    split_ifs <;> exact hself
  | update wifiInfo password =>
    rw [View.press]
    split_ifs
    · refine hhearing _ _ _ _ hself fun m => ?_
      rw [View.rename, hfences, List.cons_append]
      exact ⟨first'.assign _, added, rfl, hmac⟩
    · exact hself
  | delete wifiInfo =>
    refine hhearing _ _ _ _ hself fun m => ?_
    obtain ⟨second, others, rfl⟩ := List.exists_cons_of_ne_nil hrest
    rw [View.delete, hfences]
    exact hself

/-- **Once a device has two fences of a phone and none of others, no session of the phone whose requests
carry its address removes one, or changes another than the first.** -/
theorem session_keeps (gson : Gson) (h3 : asInt (lit "3") = some 3) (macAddress : JString) (pwd : JString)
    (presses : List (Press × Bool))
    (hmac : ∀ press ∈ presses, press.1.macAddress = none ∨ press.1.macAddress = some macAddress) (d : Device)
    (first second : WifiInfo) (rest : List WifiInfo) (hlist : d.file.list = first :: second :: rest)
    (hown : ∀ fence ∈ d.file.list, fence.macAddress = some macAddress)
    (htext : Understood asInt newJSONObject print (session pwd presses)) :
    Keeps first (second :: rest) (afterHistory newJSONObject gson ((session pwd presses).map print) d).file.list := by
  have hshows := Shows.session gson h3 presses hmac d { pwd := pwd, fences := d.file.list, replies := d.handed }
    ⟨rfl, rfl, hown⟩ htext
  have hview : ∀ v : View, Keeps first (second :: rest) v.fences →
      Keeps first (second :: rest) (presses.foldl View.press v).fences := by
    clear hmac htext hshows
    induction presses with
    | nil => exact fun _ h => h
    | cons press presses ih => exact fun v h => ih _ (h.press (List.cons_ne_nil _ _) press)
  rw [hshows.fences]
  exact hview _ ⟨first, [], by rw [hlist, List.append_nil], rfl⟩

theorem session_keeps_deleted :
    Keeps homeFence [homeFence] (afterHistory (parserOfRequests (session [] [(.delete homePhone.wifiInfo, true)])) plainGson
      ((session [] [(.delete homePhone.wifiInfo, true)]).map printText) (deviceWith [homeFence, homeFence])).file.list :=
  session_keeps plainGson rfl (lit "aa") [] [(.delete homePhone.wifiInfo, true)] (by decide)
    (deviceWith [homeFence, homeFence]) homeFence homeFence [] rfl (by decide)
    (understood_parserOfRequests (by decide))

end GpsTracker.Bluetooth
