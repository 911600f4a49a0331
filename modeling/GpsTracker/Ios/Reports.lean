import GpsTracker.Ios.Messages

/-!
# The reports of the iOS app

The actions `petLost` and `updateLocation` write more fields than the others do,
with the user id in two of them and values of their own between. They are read back
exactly for a user id that is carried: the same text in two places is no exception.
-/

namespace GpsTracker.Ios

open GpsTracker.Java GpsTracker.Json

section Encoding

variable (enc : CStringEncoding)

/-- The message of the action `petLost`; `datetime` is the description of the current date. -/
def petLostMessage (user_id datetime : JString) : Option (List Byte) :=
  enc.toStdString (lit "\x7b\"request_type\":\"pet_lost\",\"user_id\":\"" ++ user_id ++ lit "\", \"dev_id\":\"" ++
    user_id ++ lit "\", \"lon\":\"111.518\",\"lat\":\"36.096\",\"datetime\":\"" ++ datetime ++ lit "\"\x7d")

/-- The message of the action `updateLocation`. -/
def updateLocationMessage (user_id : JString) : Option (List Byte) :=
  enc.toStdString (lit "\x7b\"request_type\":\"setup_wifi\", \"user_id\":\"" ++ user_id ++
    lit "\", \"dev_id\":\"" ++ user_id ++ lit ("\", \"wifi_name\":\"ee\",\"mac_address\":\"12:12:12:12:12\"," ++
      "\"lat\":\"70.232\",\"lon\":\"132.222\"\x7d"))

end Encoding

def petLostFields (user_id datetime : JString) : List FormatField :=
  [insertedField false "user_id" user_id, insertedField true "dev_id" user_id, fixedField true "lon" "111.518",
    fixedField false "lat" "36.096", insertedField false "datetime" datetime]

def updateLocationFields (user_id : JString) : List FormatField :=
  [insertedField true "user_id" user_id, insertedField true "dev_id" user_id, fixedField true "wifi_name" "ee",
    fixedField false "mac_address" "12:12:12:12:12", fixedField false "lat" "70.232", fixedField false "lon" "132.222"]

theorem petLostMessage_eq (enc : CStringEncoding) (user_id datetime : JString) :
    petLostMessage enc user_id datetime = enc.toStdString
      (format (fixedField false "request_type" "pet_lost") (petLostFields user_id datetime)) := by
  have h1 : lit "\x7b\"request_type\":\"pet_lost\",\"user_id\":\"" = 0x7b :: member (lit "request_type")
      (lit "pet_lost" ++ quote :: 0x2c :: member (lit "user_id") []) := by decide
  have h2 : lit "\", \"dev_id\":\"" = quote :: 0x2c :: 0x20 :: member (lit "dev_id") [] := by decide
  have h3 : lit "\", \"lon\":\"111.518\",\"lat\":\"36.096\",\"datetime\":\"" =
      quote :: 0x2c :: 0x20 :: member (lit "lon") (lit "111.518" ++ quote :: 0x2c :: member (lit "lat")
        (lit "36.096" ++ quote :: 0x2c :: member (lit "datetime") [])) := by decide
  rw [petLostMessage, h1, h2, h3, lit_end]
  simp [format, formatTail, petLostFields, fixedField, insertedField, FormatField.separator, member,
    utf16_comma, utf16_comma_space]

theorem updateLocationMessage_eq (enc : CStringEncoding) (user_id : JString) :
    updateLocationMessage enc user_id = enc.toStdString
      (format (fixedField false "request_type" "setup_wifi") (updateLocationFields user_id)) := by
  have h1 : lit "\x7b\"request_type\":\"setup_wifi\", \"user_id\":\"" = 0x7b :: member (lit "request_type")
      (lit "setup_wifi" ++ quote :: 0x2c :: 0x20 :: member (lit "user_id") []) := by decide
  have h2 : lit "\", \"dev_id\":\"" = quote :: 0x2c :: 0x20 :: member (lit "dev_id") [] := by decide
  have h3 : lit ("\", \"wifi_name\":\"ee\",\"mac_address\":\"12:12:12:12:12\"," ++
      "\"lat\":\"70.232\",\"lon\":\"132.222\"\x7d") = quote :: formatTail [fixedField true "wifi_name" "ee",
        fixedField false "mac_address" "12:12:12:12:12", fixedField false "lat" "70.232",
        fixedField false "lon" "132.222"] := by decide
  rw [updateLocationMessage, h1, h2, h3]
  simp [format, formatTail, updateLocationFields, fixedField, insertedField, FormatField.separator, member,
    utf16_comma, utf16_comma_space]

/-- **The reports are read back exactly for a user id that is carried**, which stands in two
fields of each. -/
theorem reports_faithful_iff (enc : CStringEncoding) (user_id datetime : JString) :
    (Faithful (petLostMessage enc user_id datetime)
        [("request_type", lit "pet_lost"), ("user_id", user_id), ("dev_id", user_id), ("lon", lit "111.518"),
          ("lat", lit "36.096"), ("datetime", datetime)] ↔ enc.Carried user_id ∧ enc.Carried datetime) ∧
    (Faithful (updateLocationMessage enc user_id)
        [("request_type", lit "setup_wifi"), ("user_id", user_id), ("dev_id", user_id), ("wifi_name", lit "ee"),
          ("mac_address", lit "12:12:12:12:12"), ("lat", lit "70.232"), ("lon", lit "132.222")] ↔
      enc.Carried user_id) := by
  have hvalues : ∀ s ∈ ["pet_lost", "setup_wifi", "111.518", "36.096", "ee", "12:12:12:12:12", "70.232", "132.222"],
      Printable s.toList := by decide
  have hcarried : ∀ s ∈ ["pet_lost", "setup_wifi", "111.518", "36.096", "ee", "12:12:12:12:12", "70.232", "132.222"],
      enc.Carried (lit s) := fun s hs => carried_printable enc (hvalues s hs)
  simp only [List.forall_mem_cons] at hcarried
  obtain ⟨hlost, hsetup, hlon, hlat, hwifi, hmac, hlat', hlon', -⟩ := hcarried
  constructor
  · have hnamed : ∀ f ∈ petLostFields user_id datetime, f.Named := by
      intro f hf
      refine named_of_mem ?_
      simp only [petLostFields, List.mem_cons, List.not_mem_nil, or_false] at hf
      rcases hf with rfl | rfl | rfl | rfl | rfl <;> simp [fixedField, insertedField]
    rw [petLostMessage_eq]
    refine (format_faithful_iff printable_request_type hnamed).trans ?_
    simp [petLostFields, fixedField, insertedField, hlost, hlon, hlat]
  · have hnamed : ∀ f ∈ updateLocationFields user_id, f.Named := by
      intro f hf
      refine named_of_mem ?_
      simp only [updateLocationFields, List.mem_cons, List.not_mem_nil, or_false] at hf
      rcases hf with rfl | rfl | rfl | rfl | rfl | rfl <;> simp [fixedField, insertedField]
    rw [updateLocationMessage_eq]
    refine (format_faithful_iff printable_request_type hnamed).trans ?_
    simp [updateLocationFields, fixedField, insertedField, hsetup, hwifi, hmac, hlat', hlon']

end GpsTracker.Ios
