/-
  The tenant template: `crates/admin/src/template.rs`.

  A template is what the TOML parser has made of the file, with `machine.config` as the JSON
  value that `serde_json::to_value` makes of it; reading and parsing the file is a result that is
  handed in. A `HashMap` is the list of its entries, in the order in which it is enumerated.
  `order` is that order, which may be another one for each machine.

  `render_template` changes strings only, so a configuration that is an object stays one:
  `renderTemplate_objects`.
-/
import FlyVault.Admin.Machines
import FlyVault.Lib.Except

namespace FlyVault.Admin

open FlyVault.Lib

/-- The entries of a `HashMap<String, String>`. -/
abbrev Vars := List (String × String)

/-- `HashMap::insert`. -/
def Vars.insert (vars : Vars) (key value : String) : Vars :=
  (key, value) :: vars.filter fun entry => entry.1 ≠ key

structure MachineTemplate where
  name : Option String
  region : Option String
  config : Json
  leaseTtl : Option UInt32
  skipLaunch : Option Bool
  skipServiceRegistration : Option Bool
  lsvd : Option Bool

structure TenantTemplate where
  version : UInt32
  app : String
  machineCount : Nat
  machine : MachineTemplate
  metadata : Vars

structure RenderedMachineSpec where
  name : Option String
  region : Option String
  config : Json
  metadata : Vars
  leaseTtl : Option UInt32
  skipLaunch : Option Bool
  skipServiceRegistration : Option Bool
  lsvd : Option Bool

/-- `load_template`, on the result of reading and parsing the file. -/
def loadTemplate (parsed : Except Error TenantTemplate) : Except Error TenantTemplate := do
  let template ← parsed
  if template.machineCount = 0 then
    throw (anyhow "template machine_count must be greater than zero")
  else if template.machine.config.asObject.isNone then
    throw (anyhow "template machine.config must be a TOML table")
  else return template

theorem loadTemplate_config {parsed : Except Error TenantTemplate} {template : TenantTemplate}
    (h : loadTemplate parsed = .ok template) :
    ∃ fields, template.machine.config = .object fields := by
  cases parsed with
  | error e => cases h
  | ok template' =>
      obtain ⟨_, htemplate, h⟩ := except_bind_eq_ok.mp h
      cases htemplate
      split at h
      · cases h
      split at h
      · cases h
      next hobject =>
      cases h
      cases hconfig : template.machine.config with
      | object fields => exact ⟨fields, rfl⟩
      | _ =>
          rw [hconfig] at hobject
          exact absurd rfl hobject

/-! ## Rendering -/

/-- `str::replace`, for a pattern that is not empty. The number is how many characters of a
    match are still to be passed over. -/
def replaceFrom (token value : List Char) : Nat → List Char → List Char
  | _, [] => []
  | skip + 1, _ :: rest => replaceFrom token value skip rest
  | 0, c :: rest =>
      if token.isPrefixOf (c :: rest) then value ++ replaceFrom token value (token.length - 1) rest
      else c :: replaceFrom token value 0 rest

/-- `str::contains`. -/
def occurs (token : List Char) : List Char → Bool
  | [] => token.isEmpty
  | c :: rest => token.isPrefixOf (c :: rest) || occurs token rest

/-- Two braces of a kind. -/
def opening : List Char := ['\x7b', '\x7b']

def closing : List Char := ['\x7d', '\x7d']

def renderString (vars : Vars) (input : String) : Except Error String :=
  let output := vars.foldl (fun output (key, value) =>
    replaceFrom (opening ++ key.toList ++ closing) value.toList 0 output) input.toList
  if occurs opening output && occurs closing output then
    .error (anyhow s!"unresolved template variables in '{input}'")
  else .ok (String.ofList output)

mutual
def renderValue (vars : Vars) : Json → Except Error Json
  | .string s => (renderString vars s).map Json.string
  | .array items => (renderItems vars items).map Json.array
  | .object fields => (renderFields vars fields).map Json.object
  | value => .ok value

def renderItems (vars : Vars) : List Json → Except Error (List Json)
  | [] => .ok []
  | item :: rest => do
      let item ← renderValue vars item
      return item :: (← renderItems vars rest)

def renderFields (vars : Vars) : List (String × Json) → Except Error (List (String × Json))
  | [] => .ok []
  | (key, nested) :: rest => do
      let nested ← renderValue vars nested
      return (key, nested) :: (← renderFields vars rest)
end

/-- `.as_ref().map(..).transpose()`. -/
def renderOption (vars : Vars) : Option String → Except Error (Option String)
  | none => .ok none
  | some s => (renderString vars s).map some

/-- The variables of the machine with the given index. -/
def templateVars (tenantId : String) (accessToken : Option String) (extraVars : Vars)
    (idx : Nat) : Vars :=
  let vars := (extraVars.insert "tenant_id" tenantId).insert "index" (toString (idx + 1))
  match accessToken with
  | some token => vars.insert "access_token" token
  | none => vars

def renderMachine (template : TenantTemplate) (vars : Vars) : Except Error RenderedMachineSpec := do
  let config ← renderValue vars template.machine.config
  let metadata ← template.metadata.mapM fun (key, value) => do
    return (key, ← renderString vars value)
  let name ← renderOption vars template.machine.name
  let region ← renderOption vars template.machine.region
  return {
    name, region, config, metadata
    leaseTtl := template.machine.leaseTtl
    skipLaunch := template.machine.skipLaunch
    skipServiceRegistration := template.machine.skipServiceRegistration
    lsvd := template.machine.lsvd }

def renderTemplate (order : Nat → Vars → Vars) (template : TenantTemplate) (tenantId : String)
    (accessToken : Option String) (extraVars : Vars) : Except Error (List RenderedMachineSpec) :=
  (List.range template.machineCount).mapM fun idx =>
    renderMachine template (order idx (templateVars tenantId accessToken extraVars idx))

/-- Every machine has an object for its configuration if the template has. -/
theorem renderTemplate_objects {order : Nat → Vars → Vars} {template : TenantTemplate}
    {tenantId : String} {accessToken : Option String} {extraVars : Vars}
    {rendered : List RenderedMachineSpec} {fields : Json.Fields}
    (hconfig : template.machine.config = .object fields)
    (h : renderTemplate order template tenantId accessToken extraVars = .ok rendered) :
    ∀ machine ∈ rendered, ∃ fields', machine.config = .object fields' := by
  intro machine hmachine
  obtain ⟨idx, -, hrender⟩ := mem_of_mapM h machine hmachine
  obtain ⟨config, hvalue, hrender⟩ := except_bind_eq_ok.mp hrender
  obtain ⟨_, -, hrender⟩ := except_bind_eq_ok.mp hrender
  obtain ⟨_, -, hrender⟩ := except_bind_eq_ok.mp hrender
  obtain ⟨_, -, hrender⟩ := except_bind_eq_ok.mp hrender
  cases hrender
  rw [hconfig, renderValue] at hvalue
  obtain ⟨fields', -, hfields'⟩ := except_map_eq_ok.mp hvalue
  exact ⟨fields', hfields'.symm⟩

end FlyVault.Admin
