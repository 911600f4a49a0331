import GpsTracker.Java.Runtime
import GpsTracker.Java.Text

/-!
# The network of a fence

`WifiAdmin.createWifiInfo` makes the configuration that is handed to
`WifiManager`. Android wants the name of a network and its password in quotes, and
a null reference is printed as `null`. Before that it looks for the name among the
scan results, and removes the configured network at the place where it finds it.
-/

namespace GpsTracker.Work

open GpsTracker.Java

/-- `"\"" + s + "\""`. -/
def quoted (s : Option JString) : JString := lit "\"" ++ s.getD (lit "null") ++ lit "\""

/-- `WifiConfiguration.AuthAlgorithm`. -/
inductive AuthAlgorithm where
  /-- `OPEN`. -/
  | openSystem
  /-- `SHARED`. -/
  | shared
  deriving DecidableEq, Repr

/-- `WifiConfiguration.GroupCipher` and `PairwiseCipher`. -/
inductive Cipher where
  /-- `WEP40`. -/
  | wep40
  /-- `WEP104`. -/
  | wep104
  /-- `TKIP`. -/
  | tkip
  /-- `CCMP`. -/
  | ccmp
  deriving DecidableEq, Repr

/-- `WifiConfiguration.KeyMgmt`. -/
inductive KeyMgmt where
  /-- `NONE`. -/
  | none
  /-- `WPA_PSK`. -/
  | wpaPsk
  deriving DecidableEq, Repr

/-- `WifiConfiguration`, the fields that are set. -/
structure WifiConfiguration where
  /-- The name. -/
  SSID : JString
  /-- Whether it is not broadcast. -/
  hiddenSSID : Bool := false
  /-- `wepKeys[0]`. -/
  wepKey : Option JString := none
  /-- `wepTxKeyIndex`. -/
  wepTxKeyIndex : JInt := 0
  /-- The WPA password. -/
  preSharedKey : Option JString := none
  /-- `allowedAuthAlgorithms`. -/
  allowedAuthAlgorithms : List AuthAlgorithm := []
  /-- `allowedGroupCiphers`. -/
  allowedGroupCiphers : List Cipher := []
  /-- `allowedKeyManagement`. -/
  allowedKeyManagement : List KeyMgmt := []
  /-- `allowedPairwiseCiphers`. -/
  allowedPairwiseCiphers : List Cipher := []
  /-- Whether `status` is `ENABLED`. -/
  enabled : Bool := false
  deriving DecidableEq, Repr

/-- What `startScan` leaves in `WifiAdmin`. -/
structure WifiAdmin where
  /-- `mWifiList`: the names found. -/
  mWifiList : List (Option JString)
  /-- `mWifiConfigurations`: the ids of the configured networks, or null. -/
  mWifiConfigurations : Option (List ℤ)

/-- The loop of `isExsits` from index `i` on. What it throws is caught. -/
def isExsitsFrom (mWifiConfigurations : Option (List ℤ)) (ssid : Option JString) :
    ℕ → List (Option JString) → Option ℤ → Option ℤ
  | _, [], config => config
  | _, none :: _, config => config
  | i, some name :: list, config =>
    if some name = ssid then
      match mWifiConfigurations.bind fun configurations => configurations[i]? with
      | some networkId => isExsitsFrom mWifiConfigurations ssid (i + 1) list (some networkId)
      | none => config
    else isExsitsFrom mWifiConfigurations ssid (i + 1) list config

/-- `isExsits`: the id of the configuration it returns, if any. -/
def WifiAdmin.isExsits (wifiAdmin : WifiAdmin) (ssid : Option JString) : Option ℤ :=
  isExsitsFrom wifiAdmin.mWifiConfigurations ssid 0 wifiAdmin.mWifiList none

/-- `createWifiInfo`: the configuration, and the id of the network that is removed. -/
def WifiAdmin.createWifiInfo (wifiAdmin : WifiAdmin) (SSID Password : Option JString) (type : JInt) :
    WifiConfiguration × Option ℤ :=
  let config : WifiConfiguration := { SSID := quoted SSID }
  let config :=
    if type = 1 then { config with allowedKeyManagement := [.none] }
    else if type = 2 then
      { config with
        hiddenSSID := true
        wepKey := some (quoted Password)
        allowedAuthAlgorithms := [.shared]
        allowedGroupCiphers := [.ccmp, .tkip, .wep40, .wep104]
        allowedKeyManagement := [.none]
        wepTxKeyIndex := 0 }
    else if type = 3 then
      { config with
        preSharedKey := some (quoted Password)
        hiddenSSID := true
        allowedAuthAlgorithms := [.openSystem]
        allowedGroupCiphers := [.tkip, .ccmp]
        allowedKeyManagement := [.wpaPsk]
        allowedPairwiseCiphers := [.tkip, .ccmp]
        enabled := true }
    else config
  (config, wifiAdmin.isExsits SSID)

end GpsTracker.Work
