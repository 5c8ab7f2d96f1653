import FlutterPractice.ComplexApi.UserModel
import FlutterPractice.Dart.Schema

/-! # The codec of a user

`toJson` writes every key, with null for what is absent. `fromJson` accepts the
objects in which every known key, at every level, holds null or a value of its
type, and one after the other they restrict an object to its known keys.
-/

namespace FlutterPractice.ComplexApi

open Dart Json

def Geo.toJson (geo : Geo) : Json :=
  .object [("lat", nullOr .string geo.lat), ("lng", nullOr .string geo.lng)]

def Address.toJson (address : Address) : Json :=
  .object [
    ("street", nullOr .string address.street),
    ("suite", nullOr .string address.suite),
    ("city", nullOr .string address.city),
    ("zipcode", nullOr .string address.zipcode),
    ("geo", nullOr Geo.toJson address.geo)]

def Company.toJson (company : Company) : Json :=
  .object [
    ("name", nullOr .string company.name),
    ("catchPhrase", nullOr .string company.catchPhrase),
    ("bs", nullOr .string company.bs)]

def UserModel.toJson (user : UserModel) : Json :=
  .object [
    ("id", nullOr .int user.id),
    ("name", nullOr .string user.name),
    ("username", nullOr .string user.username),
    ("email", nullOr .string user.email),
    ("address", nullOr Address.toJson user.address),
    ("phone", nullOr .string user.phone),
    ("website", nullOr .string user.website),
    ("company", nullOr Company.toJson user.company)]

def Geo.schema : Schema := .record [("lat", .string), ("lng", .string)]

def Address.schema : Schema :=
  .record [("street", .string), ("suite", .string), ("city", .string), ("zipcode", .string),
    ("geo", Geo.schema)]

def Company.schema : Schema :=
  .record [("name", .string), ("catchPhrase", .string), ("bs", .string)]

def UserModel.schema : Schema :=
  .record [("id", .int), ("name", .string), ("username", .string), ("email", .string),
    ("address", Address.schema), ("phone", .string), ("website", .string),
    ("company", Company.schema)]

theorem Geo.codec : Codec Geo.schema Geo.fromJson Geo.toJson := by
  refine Codec.record (fun geo => ?_) (fun fields => ?_) fun fields geo h => ?_
  · simp [get_cons, Codec.string.orNull_nullOr]
  · simp [Schema.membersFit, ← Codec.string.isSome_orNull, Option.isSome_iff_exists,
      Option.bind_eq_some_iff]
  · simp only [Option.bind_eq_bind, Option.bind_eq_some_iff, Option.pure_def,
      Option.some.injEq] at h
    obtain ⟨lat, hlat, lng, hlng, rfl⟩ := h
    simp only [Schema.restrictMembers, Codec.string.nullOr_of_orNull hlat,
      Codec.string.nullOr_of_orNull hlng]

theorem Address.codec : Codec Address.schema Address.fromJson Address.toJson := by
  refine Codec.record (fun address => ?_) (fun fields => ?_) fun fields address h => ?_
  · simp [get_cons, Codec.string.orNull_nullOr, Geo.codec.orNull_nullOr]
  · simp [Schema.membersFit, ← Codec.string.isSome_orNull, ← Geo.codec.isSome_orNull,
      Option.isSome_iff_exists, Option.bind_eq_some_iff]
  · simp only [Option.bind_eq_bind, Option.bind_eq_some_iff, Option.pure_def,
      Option.some.injEq] at h
    obtain ⟨street, hstreet, suite, hsuite, city, hcity, zipcode, hzipcode, geo, hgeo, rfl⟩ := h
    simp only [Schema.restrictMembers, Codec.string.nullOr_of_orNull hstreet,
      Codec.string.nullOr_of_orNull hsuite, Codec.string.nullOr_of_orNull hcity,
      Codec.string.nullOr_of_orNull hzipcode, Geo.codec.nullOr_of_orNull hgeo]

theorem Company.codec : Codec Company.schema Company.fromJson Company.toJson := by
  refine Codec.record (fun company => ?_) (fun fields => ?_) fun fields company h => ?_
  · simp [get_cons, Codec.string.orNull_nullOr]
  · simp [Schema.membersFit, ← Codec.string.isSome_orNull, Option.isSome_iff_exists,
      Option.bind_eq_some_iff]
  · simp only [Option.bind_eq_bind, Option.bind_eq_some_iff, Option.pure_def,
      Option.some.injEq] at h
    obtain ⟨name, hname, catchPhrase, hcatchPhrase, bs, hbs, rfl⟩ := h
    simp only [Schema.restrictMembers, Codec.string.nullOr_of_orNull hname,
      Codec.string.nullOr_of_orNull hcatchPhrase, Codec.string.nullOr_of_orNull hbs]

theorem UserModel.codec : Codec UserModel.schema UserModel.fromJson UserModel.toJson := by
  refine Codec.record (fun user => ?_) (fun fields => ?_) fun fields user h => ?_
  · simp [get_cons, Codec.int.orNull_nullOr, Codec.string.orNull_nullOr,
      Address.codec.orNull_nullOr, Company.codec.orNull_nullOr]
  · simp [Schema.membersFit, ← Codec.int.isSome_orNull, ← Codec.string.isSome_orNull,
      ← Address.codec.isSome_orNull, ← Company.codec.isSome_orNull, Option.isSome_iff_exists,
      Option.bind_eq_some_iff]
  · simp only [Option.bind_eq_bind, Option.bind_eq_some_iff, Option.pure_def,
      Option.some.injEq] at h
    obtain ⟨id, hid, name, hname, username, husername, email, hemail, address, haddress, phone,
      hphone, website, hwebsite, company, hcompany, rfl⟩ := h
    simp only [Schema.restrictMembers, Codec.int.nullOr_of_orNull hid,
      Codec.string.nullOr_of_orNull hname, Codec.string.nullOr_of_orNull husername,
      Codec.string.nullOr_of_orNull hemail, Address.codec.nullOr_of_orNull haddress,
      Codec.string.nullOr_of_orNull hphone, Codec.string.nullOr_of_orNull hwebsite,
      Company.codec.nullOr_of_orNull hcompany]

/--
A user is read back from its JSON. An object is rejected iff known keys lead through objects to a
value of the wrong type, and one that is accepted is written back as its known keys, with null for
those that are absent. What was written back once is written back as it is.
-/
theorem fromJson_toJson_user :
    (∀ user : UserModel, UserModel.fromJson user.toJson = some user) ∧
    ∀ fields : List (String × Json),
      (UserModel.fromJson (.object fields) = none ↔
        ∃ path target value, UserModel.schema.Reaches (.object fields) path target value ∧
          value ≠ .null ∧ target.hasType value = false) ∧
      ∀ user, UserModel.fromJson (.object fields) = some user →
        user.toJson = UserModel.schema.restrict (.object fields) ∧
          (UserModel.fromJson user.toJson).map UserModel.toJson = some user.toJson := by
  refine ⟨UserModel.codec.fromJson_toJson, fun fields => ⟨?_, fun user h => ⟨?_, ?_⟩⟩⟩
  · have hsome := UserModel.codec.isSome_fromJson (.object fields) nofun
    rw [← Schema.not_fits_iff, ← hsome, Option.not_isSome_iff_eq_none]
  · exact UserModel.codec.toJson_of_fromJson _ _ h
  · rw [UserModel.codec.fromJson_toJson, Option.map_some]

end FlutterPractice.ComplexApi
