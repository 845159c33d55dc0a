/-
  What rendering computes: `render_string` and `render_value` of `crates/admin/src/template.rs`.

  `rendering_substitutes`: on brace-free literals and placeholders, with brace-free values, the
  loop of replacements is a simultaneous substitution in any order of the map. `render_value`
  renders the strings at all depths, and nothing else in the value changes.
-/
import FlyVault.Admin.Placeholders
import FlyVault.Lib.JsonPath

namespace FlyVault.Admin

open FlyVault.Lib

/-! ## Simultaneous substitution -/

/-- What is to stand for a piece, if that is known. -/
def Piece.value (vars : Vars) : Piece → Option (List Char)
  | .char c => some [c]
  | .var key => (vars.lookup key).map String.toList

/-- The template with the value of its variable for every placeholder, all at once. There is no
    such text if a variable is not bound. -/
def substitute (vars : Vars) : List Piece → Option (List Char)
  | [] => some []
  | piece :: rest => do
      let value ← piece.value vars
      return value ++ (← substitute vars rest)

theorem Piece.text_of_value {vars : Vars} {piece : Piece} {value : List Char}
    (h : piece.value vars = some value) : piece.text vars (vars.map Prod.fst) = value := by
  cases piece with
  | char c => exact Option.some.inj h
  | var key =>
      obtain ⟨found, hfound, -⟩ := Option.map_eq_some_iff.mp h
      have hmem : key ∈ vars.map Prod.fst := List.mem_map_of_mem (mem_of_lookup hfound)
      rw [Piece.value] at h
      rw [Piece.text, if_pos hmem, h]
      rfl

theorem Piece.Plain.notMem_value {vars : Vars}
    (hvalues : ∀ entry ∈ vars, BraceFree entry.2.toList) {piece : Piece} (hpiece : piece.Plain)
    {value : List Char} (h : piece.value vars = some value) : '\x7b' ∉ value := by
  cases piece with
  | char c =>
      rw [← Option.some.inj h]
      exact hpiece.1
  | var key =>
      obtain ⟨found, hfound, hvalue⟩ := Option.map_eq_some_iff.mp h
      rw [← hvalue]
      exact (hvalues _ (mem_of_lookup hfound)).1

theorem Piece.value_eq_none {vars : Vars} {piece : Piece} :
    piece.value vars = none ↔ ∃ key, piece = .var key ∧ vars.lookup key = none := by
  cases piece with
  | char c => simp [Piece.value]
  | var key => simp only [Piece.value, Option.map_eq_none_iff, Piece.var.injEq, exists_eq_left']

theorem substitute_cons_eq_some {vars : Vars} {piece : Piece} {rest : List Piece}
    {out : List Char} (h : substitute vars (piece :: rest) = some out) :
    ∃ value out', piece.value vars = some value ∧ substitute vars rest = some out' ∧
      value ++ out' = out := by
  obtain ⟨value, hvalue, h⟩ := Option.bind_eq_some_iff.mp h
  obtain ⟨out', hrest, hout⟩ := Option.bind_eq_some_iff.mp h
  exact ⟨value, out', hvalue, hrest, Option.some.inj hout⟩

theorem text_of_substitute {vars : Vars} {pieces : List Piece} {out : List Char}
    (h : substitute vars pieces = some out) : text vars (vars.map Prod.fst) pieces = out := by
  induction pieces generalizing out with
  | nil => exact Option.some.inj h
  | cons piece rest ih =>
      obtain ⟨value, out', hvalue, hrest, hout⟩ := substitute_cons_eq_some h
      rw [← hout, ← ih hrest, ← Piece.text_of_value hvalue]
      rfl

theorem notMem_of_substitute {vars : Vars} (hvalues : ∀ entry ∈ vars, BraceFree entry.2.toList)
    {pieces : List Piece} (hpieces : ∀ piece ∈ pieces, piece.Plain) {out : List Char}
    (h : substitute vars pieces = some out) : '\x7b' ∉ out := by
  induction pieces generalizing out with
  | nil =>
      rw [← Option.some.inj h]
      exact List.not_mem_nil
  | cons piece rest ih =>
      obtain ⟨hpiece, hplain⟩ := List.forall_mem_cons.mp hpieces
      obtain ⟨value, out', hvalue, hrest, hout⟩ := substitute_cons_eq_some h
      rw [← hout, List.mem_append, not_or]
      exact ⟨hpiece.notMem_value hvalues hvalue, ih hplain hrest⟩

theorem substitute_eq_none {vars : Vars} {pieces : List Piece} :
    substitute vars pieces = none ↔ ∃ key, Piece.var key ∈ pieces ∧ vars.lookup key = none := by
  have hall : substitute vars pieces = none ↔ ∃ piece ∈ pieces, piece.value vars = none := by
    induction pieces with
    | nil => simp [substitute]
    | cons piece rest ih =>
        rw [List.exists_mem_cons_iff, ← ih, substitute]
        cases piece.value vars with
        | none => simp
        | some value =>
            cases substitute vars rest with
            | none => simp
            | some out => simp
  rw [hall]
  constructor
  · intro h
    obtain ⟨piece, hpiece, hvalue⟩ := h
    obtain ⟨key, rfl, hkey⟩ := Piece.value_eq_none.mp hvalue
    exact ⟨key, hpiece, hkey⟩
  · intro h
    obtain ⟨key, hpiece, hkey⟩ := h
    exact ⟨.var key, hpiece, Piece.value_eq_none.mpr ⟨key, rfl, hkey⟩⟩

theorem occurs_of_token {key : String} {output : List Char} (h : token key <:+: output) :
    occurs opening output ∧ occurs closing output := by
  rw [occurs_iff, occurs_iff]
  constructor
  · have hopening : opening <:+: token key := ⟨[], key.toList ++ closing, rfl⟩
    exact hopening.trans h
  · have hclosing : closing <:+ token key := List.suffix_append _ _
    exact hclosing.isInfix.trans h

/-- The token of a variable that is not bound is still there at the end, for the last test. -/
theorem token_of_unbound {vars : Vars} {pieces : List Piece} {key : String}
    (hpiece : Piece.var key ∈ pieces) (hunbound : vars.lookup key = none)
    (replaced : List String) : token key <:+: text vars replaced pieces := by
  have hstays : (Piece.var key).text vars replaced = token key := by
    rw [Piece.text, hunbound]
    exact ite_self (token key)
  obtain ⟨before, after, hsplit⟩ := List.append_of_mem hpiece
  rw [hsplit, text, List.flatMap_append, List.flatMap_cons, hstays, ← List.append_assoc]
  exact List.infix_append _ _ _

theorem not_occurs_of_notMem {out : List Char} (h : '\x7b' ∉ out) : occurs opening out = false := by
  rw [Bool.eq_false_iff, ne_eq, occurs_iff]
  intro hopening
  exact h (hopening.subset List.mem_cons_self)

theorem renderString_of_plain {vars : Vars} (hkeys : (vars.map Prod.fst).Nodup)
    (hnames : ∀ entry ∈ vars, BraceFree entry.1.toList)
    (hvalues : ∀ entry ∈ vars, BraceFree entry.2.toList) {pieces : List Piece}
    (hpieces : ∀ piece ∈ pieces, piece.Plain) {input : String}
    (hinput : input.toList = pieces.flatMap Piece.source) {order : Vars}
    (horder : order.Perm vars) :
    renderString order input = (substitute vars pieces).elim
      (.error (anyhow s!"unresolved template variables in '{input}'"))
      fun out => .ok (String.ofList out) := by
  rw [renderString_of_separate hkeys (separate_of_plain hnames hvalues hpieces) hinput horder]
  cases hout : substitute vars pieces with
  | none =>
      obtain ⟨key, hpiece, hunbound⟩ := substitute_eq_none.mp hout
      have hleft := occurs_of_token (token_of_unbound hpiece hunbound (vars.map Prod.fst))
      rw [hleft.1, hleft.2]
      rfl
  | some out =>
      rw [text_of_substitute hout, not_occurs_of_notMem (notMem_of_substitute hvalues hpieces hout)]
      rfl

/-! ## Values -/

/-- What rendering makes of one value, leaving aside what is inside it: the string is rendered,
    an array keeps its length, an object its keys, and any other value stays the same. -/
inductive NodeRendered (vars : Vars) : Json → Json → Prop
  | null : NodeRendered vars .null .null
  | bool (b : Bool) : NodeRendered vars (.bool b) (.bool b)
  | number (n : Number) : NodeRendered vars (.number n) (.number n)
  | string {s s' : String} (h : renderString vars s = .ok s') :
      NodeRendered vars (.string s) (.string s')
  | array {items items' : List Json} (h : items.length = items'.length) :
      NodeRendered vars (.array items) (.array items')
  | object {fields fields' : Json.Fields} (h : fields.map Prod.fst = fields'.map Prod.fst) :
      NodeRendered vars (.object fields) (.object fields')

theorem renderItems_eq (vars : Vars) (items : List Json) :
    renderItems vars items = items.mapM (renderValue vars) := by
  induction items with
  | nil => rfl
  | cons item rest ih => rw [renderItems, List.mapM_cons, ih]

/-- The rendering of one entry of an object. -/
def renderEntry (vars : Vars) (entry : String × Json) : Except Error (String × Json) :=
  (renderValue vars entry.2).map (Prod.mk entry.1)

theorem renderFields_eq (vars : Vars) (fields : Json.Fields) :
    renderFields vars fields = fields.mapM (renderEntry vars) := by
  induction fields with
  | nil => rfl
  | cons entry rest ih =>
      obtain ⟨key, nested⟩ := entry
      rw [renderFields, List.mapM_cons, ih, renderEntry]
      cases renderValue vars nested with
      | error e => rfl
      | ok nested' => rfl

theorem renderEntry_eq_ok {vars : Vars} {entry entry' : String × Json} :
    renderEntry vars entry = .ok entry' ↔
      entry.1 = entry'.1 ∧ renderValue vars entry.2 = .ok entry'.2 := by
  rw [renderEntry, except_map_eq_ok]
  constructor
  · intro h
    obtain ⟨nested, hnested, hentry⟩ := h
    rw [← hentry]
    exact ⟨rfl, hnested⟩
  · intro h
    exact ⟨entry'.2, h.2, Prod.ext h.1 rfl⟩

theorem renderFields_eq_ok {vars : Vars} {fields fields' : Json.Fields} :
    renderFields vars fields = .ok fields' ↔
      fields.map Prod.fst = fields'.map Prod.fst ∧
        List.Forall₂ (fun value value' => renderValue vars value = .ok value')
          (fields.map Prod.snd) (fields'.map Prod.snd) := by
  simp only [renderFields_eq, mapM_eq_ok, renderEntry_eq_ok]
  induction fields generalizing fields' with
  | nil => cases fields' <;> simp
  | cons entry rest ih =>
      cases fields' with
      | nil => simp
      | cons entry' rest' =>
          simp only [List.forall₂_cons, List.map_cons, List.cons.injEq, ih]
          exact and_and_and_comm

/-- One level of `render_value`. -/
theorem renderValue_eq_ok {vars : Vars} {value value' : Json} :
    renderValue vars value = .ok value' ↔ NodeRendered vars value value' ∧
      List.Forall₂ (fun child child' => renderValue vars child = .ok child')
        value.children value'.children := by
  constructor
  · intro h
    cases value with
    | null =>
        cases h
        exact ⟨.null, .nil⟩
    | bool b =>
        cases h
        exact ⟨.bool b, .nil⟩
    | number n =>
        cases h
        exact ⟨.number n, .nil⟩
    | string s =>
        rw [renderValue] at h
        obtain ⟨s', hs, rfl⟩ := except_map_eq_ok.mp h
        exact ⟨.string hs, .nil⟩
    | array items =>
        rw [renderValue, renderItems_eq] at h
        obtain ⟨items', hitems, rfl⟩ := except_map_eq_ok.mp h
        have hall := mapM_eq_ok.mp hitems
        exact ⟨.array hall.length_eq, hall⟩
    | object fields =>
        rw [renderValue] at h
        obtain ⟨fields', hfields, rfl⟩ := except_map_eq_ok.mp h
        have hall := renderFields_eq_ok.mp hfields
        exact ⟨.object hall.1, hall.2⟩
  · intro h
    obtain ⟨hnode, hchildren⟩ := h
    cases hnode with
    | null => rfl
    | bool b => rfl
    | number n => rfl
    | string hs =>
        rw [renderValue, hs]
        rfl
    | array _ =>
        rw [renderValue, renderItems_eq]
        exact except_map_eq_ok.mpr ⟨_, mapM_eq_ok.mpr hchildren, rfl⟩
    | object hkeys =>
        rw [renderValue]
        exact except_map_eq_ok.mpr ⟨_, renderFields_eq_ok.mpr ⟨hkeys, hchildren⟩, rfl⟩

/-- The rendered value, at every path. -/
theorem renderValue_everywhere {vars : Vars} {value value' : Json} :
    renderValue vars value = .ok value' ↔ Json.Everywhere (NodeRendered vars) value value' :=
  Json.iff_everywhere (fun _ _ => renderValue_eq_ok) value value'

/-- An error of `render_value` is that of a string or comes from a child. -/
theorem renderValue_eq_error {vars : Vars} {value : Json} {e : Error}
    (h : renderValue vars value = .error e) :
    (∃ s, value = .string s ∧ renderString vars s = .error e) ∨
      ∃ child ∈ value.children, renderValue vars child = .error e := by
  cases value with
  | null => cases h
  | bool b => cases h
  | number n => cases h
  | string s =>
      rw [renderValue] at h
      exact .inl ⟨s, rfl, except_map_eq_error.mp h⟩
  | array items =>
      rw [renderValue, renderItems_eq] at h
      exact .inr (error_of_mapM (except_map_eq_error.mp h))
  | object fields =>
      rw [renderValue, renderFields_eq] at h
      obtain ⟨entry, hentry, herror⟩ := error_of_mapM (except_map_eq_error.mp h)
      exact .inr ⟨entry.2, List.mem_map_of_mem hentry, except_map_eq_error.mp herror⟩

theorem string_of_renderValue_error {vars : Vars} {value : Json} {e : Error}
    (h : renderValue vars value = .error e) :
    ∃ path s, value.descend path = some (.string s) ∧ renderString vars s = .error e := by
  induction value using Json.children_induction with
  | h value ih =>
      obtain ⟨s, hvalue, hs⟩ | ⟨child, hchild, herror⟩ := renderValue_eq_error h
      · exact ⟨[], s, congrArg some hvalue, hs⟩
      · obtain ⟨path, s, hpath, hs⟩ := ih child hchild herror
        obtain ⟨path', hpath'⟩ := Json.descend_of_child hchild hpath
        exact ⟨path', s, hpath', hs⟩

theorem renderString_of_renderValue {vars : Vars} {value value' : Json}
    (h : renderValue vars value = .ok value') {path : List Nat} {s : String}
    (hpath : value.descend path = some (.string s)) : ∃ s', renderString vars s = .ok s' := by
  have hnode := renderValue_everywhere.mp h path
  rw [hpath] at hnode
  generalize value'.descend path = found at hnode
  cases hnode with
  | some hnode =>
      cases hnode with
      | string hs => exact ⟨_, hs⟩

/-- Rendering a value fails if and only if rendering one of its strings does. -/
theorem renderValue_error_iff {vars : Vars} {value : Json} :
    (∃ e, renderValue vars value = .error e) ↔
      ∃ path s e, value.descend path = some (.string s) ∧ renderString vars s = .error e := by
  constructor
  · intro h
    obtain ⟨e, he⟩ := h
    obtain ⟨path, s, hpath, hs⟩ := string_of_renderValue_error he
    exact ⟨path, s, e, hpath, hs⟩
  · intro h
    obtain ⟨path, s, e, hpath, hs⟩ := h
    cases hvalue : renderValue vars value with
    | error e' => exact ⟨e', rfl⟩
    | ok value' =>
        obtain ⟨s', hs'⟩ := renderString_of_renderValue hvalue hpath
        rw [hs] at hs'
        cases hs'

theorem substitute_isSome_iff {vars : Vars} {pieces : List Piece} :
    (substitute vars pieces).isSome ↔
      ∀ key, Piece.var key ∈ pieces → key ∈ vars.map Prod.fst := by
  have hbound : ∀ key, vars.lookup key = none ↔ key ∉ vars.map Prod.fst := by
    intro key
    rw [List.lookup_eq_none_iff]
    constructor
    · intro h hmem
      obtain ⟨entry, hentry, hkey⟩ := List.mem_map.mp hmem
      exact bne_iff_ne.mp (h entry hentry) hkey.symm
    · intro h entry hentry
      exact bne_iff_ne.mpr fun heq => h (heq ▸ List.mem_map_of_mem hentry)
  rw [Option.isSome_iff_ne_none, ne_eq, substitute_eq_none]
  simp only [hbound, not_exists, not_and, not_not]

/-- Rendering is simultaneous substitution on brace-free literals and placeholders, for variables
    with brace-free keys and values and in every order of the map: the substituted text if every
    key is bound, an error otherwise. `render_value` renders the string at every path and
    changes nothing else, and it fails where one of the strings does. -/
theorem rendering_substitutes {vars order : Vars} (hkeys : (vars.map Prod.fst).Nodup)
    (hnames : ∀ entry ∈ vars, BraceFree entry.1.toList)
    (hvalues : ∀ entry ∈ vars, BraceFree entry.2.toList) (horder : order.Perm vars) :
    (∀ (pieces : List Piece) (input : String), (∀ piece ∈ pieces, piece.Plain) →
      input.toList = pieces.flatMap Piece.source →
        renderString order input = (substitute vars pieces).elim
          (.error (anyhow s!"unresolved template variables in '{input}'"))
          (fun out => .ok (String.ofList out)) ∧
        ((substitute vars pieces).isSome ↔
          ∀ key, Piece.var key ∈ pieces → key ∈ vars.map Prod.fst)) ∧
    (∀ value value', renderValue order value = .ok value' ↔
      Json.Everywhere (NodeRendered order) value value') ∧
    ∀ value, (∃ e, renderValue order value = .error e) ↔
      ∃ path s e, value.descend path = some (.string s) ∧ renderString order s = .error e := by
  refine ⟨?_, fun _ _ => renderValue_everywhere, fun _ => renderValue_error_iff⟩
  intro pieces input hpieces hinput
  exact ⟨renderString_of_plain hkeys hnames hvalues hpieces hinput horder, substitute_isSome_iff⟩

theorem rendering_substitutes_two :
    renderString [("index", "1"), ("tenant_id", "alpha")]
      "\x7b\x7btenant_id\x7d\x7d-\x7b\x7bindex\x7d\x7d" = .ok "alpha-1" :=
  ((@rendering_substitutes [("tenant_id", "alpha"), ("index", "1")] _ (by decide) (by decide)
    (by decide) (by decide)).1 [.var "tenant_id", .char '-', .var "index"] _ (by decide) rfl).1

end FlyVault.Admin
