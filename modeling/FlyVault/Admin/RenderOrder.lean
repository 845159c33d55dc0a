/-
  The order of the variables in `render_template`.

  The order in which a `HashMap` gives its entries is another one in each run, and it matters.
  With a placeholder in the key of another one, the replacement of the inner one forms the outer
  one, which is replaced if its variable comes later and is left for the error if it came
  before: `rendering_depends_on_order`. The order is of no account where a placeholder is
  only found where the template has it (`renderString_perm`), and with it for a template of
  such strings.

  Of the templates that do not meet this condition some give one result all the same, for a
  replacement can undo what another has done, and the last test makes one error of all texts with
  braces. Over all templates the condition is exact: with brace-free keys and values, the order
  matters to none of them if and only if no value is a part of the key of another variable
  (`order_free_iff`).
-/
import FlyVault.Admin.Rendering

namespace FlyVault.Admin

open FlyVault.Lib

/-! ## Templates without interference -/

/-- The template as the placeholders of the map's variables and the characters between them. -/
inductive Parsed (vars : Vars) : List Piece → Prop
  | nil : Parsed vars []
  | char {c : Char} {rest : List Piece}
      (h : ∀ entry ∈ vars, ¬token entry.1 <+: c :: rest.flatMap Piece.source)
      (hrest : Parsed vars rest) : Parsed vars (.char c :: rest)
  | var {entry : String × String} {rest : List Piece} (h : entry ∈ vars)
      (hrest : Parsed vars rest) : Parsed vars (.var entry.1 :: rest)

theorem exists_parsed (vars : Vars) (input : List Char) :
    ∃ pieces, Parsed vars pieces ∧ input = pieces.flatMap Piece.source := by
  induction hlength : input.length using Nat.strong_induction_on generalizing input with
  | h length ih =>
      cases input with
      | nil => exact ⟨[], .nil, rfl⟩
      | cons c rest =>
          by_cases hstarts : ∃ entry ∈ vars, token entry.1 <+: c :: rest
          · obtain ⟨entry, hentry, after, hafter⟩ := hstarts
            have hshorter : after.length < length := by
              rw [← hlength, ← hafter, List.length_append]
              exact Nat.lt_add_of_pos_left (List.length_pos_iff.mpr (token_ne_nil entry.1))
            obtain ⟨pieces, hparsed, hpieces⟩ := ih after.length hshorter after rfl
            refine ⟨.var entry.1 :: pieces, .var hentry hparsed, ?_⟩
            rw [← hafter, hpieces]
            rfl
          · have hshorter : rest.length < length := by
              rw [← hlength]
              exact Nat.lt_succ_self rest.length
            obtain ⟨pieces, hparsed, hpieces⟩ := ih rest.length hshorter rest rfl
            refine ⟨.char c :: pieces, .char ?_ hparsed, congrArg (c :: ·) hpieces⟩
            intro entry hentry hfound
            rw [← hpieces] at hfound
            exact hstarts ⟨entry, hentry, hfound⟩

theorem Parsed.of_append {vars : Vars} {before after : List Piece}
    (h : Parsed vars (before ++ after)) : Parsed vars after := by
  induction before with
  | nil => exact h
  | cons piece before ih =>
      cases h with
      | char _ hrest => exact ih hrest
      | var _ hrest => exact ih hrest

section

variable {key : String} {t z : List Char}

/-- All of a token but its first brace, cut off anywhere on the left, does not begin like a
    token. -/
theorem not_prefix_token (hkey : BraceFree key.toList) (hne : t ≠ [])
    (ht : t <:+ '\x7b' :: (key.toList ++ closing)) (other : String) :
    ¬t <+: token other ++ z := by
  intro h
  cases t with
  | nil => exact hne rfl
  | cons c t =>
      obtain ⟨hc, hrest⟩ := List.cons_prefix_cons.mp h
      obtain heq | hsuffix := List.suffix_cons_iff.mp ht
      · -- All of it: its second character would be a brace.
        rw [(List.cons.inj heq).2] at hrest
        have hbraces : '\x7d' = '\x7b' :=
          (@eq_before_brace _ _ _ [] ['\x7d'] _ hkey.1 List.not_mem_nil hrest).2
        exact absurd hbraces (by decide)
      · rw [hc] at hsuffix
        exact notMem_append_closing hkey.1 (hsuffix.subset List.mem_cons_self)

theorem infix_of_cons {b : Char} {value x : List Char} (hb : b ∉ value) (h : value <:+: b :: x) :
    value <:+: x := by
  obtain hstart | hlater := List.infix_cons_iff.mp h
  · obtain hnil | ⟨rest, hrest, -⟩ := List.prefix_cons_iff.mp hstart
    · rw [hnil]
      exact List.nil_infix
    · rw [hrest] at hb
      exact absurd List.mem_cons_self hb
  · exact hlater

theorem infix_of_concat {b : Char} {value x : List Char} (hb : b ∉ value)
    (h : value <:+: x ++ [b]) : value <:+: x := by
  obtain hend | hearlier := List.infix_concat_iff.mp h
  · obtain hnil | ⟨rest, hrest, -⟩ := List.suffix_concat_iff.mp hend
    · rw [hnil]
      exact List.nil_infix
    · rw [hrest] at hb
      exact absurd (List.mem_append_right rest List.mem_cons_self) hb
  · exact hearlier

/-- A value that stands where the rest of a token is found is a part of the key. -/
theorem infix_of_value {value : List Char} (hvalue : BraceFree value) (hne : t ≠ [])
    (ht : t <:+ '\x7b' :: (key.toList ++ closing)) (h : t <+: value ++ z) :
    value <:+: key.toList := by
  have hlast : '\x7d' ∈ t := by
    have hsplit : '\x7b' :: (key.toList ++ closing) =
        ('\x7b' :: (key.toList ++ ['\x7d'])) ++ ['\x7d'] := by
      simp [closing]
    rw [hsplit] at ht
    obtain hnil | ⟨rest, hrest, -⟩ := List.suffix_concat_iff.mp ht
    · exact absurd hnil hne
    · rw [hrest]
      exact List.mem_append_right rest List.mem_cons_self
  obtain hshort | hlong := List.prefix_or_prefix_of_prefix h (List.prefix_append value z)
  · exact absurd (hshort.subset hlast) hvalue.2
  · have hin : value <:+: key.toList ++ closing :=
      infix_of_cons hvalue.1 (hlong.isInfix.trans ht.isInfix)
    have hin' : value <:+: key.toList ++ ['\x7d'] := by
      apply infix_of_concat hvalue.2
      rw [List.append_assoc]
      exact hin
    exact infix_of_concat hvalue.2 hin'

end

/-- No value is a part of the key of another variable. -/
def ValuesApart (vars : Vars) : Prop :=
  ∀ entry ∈ vars, ∀ other ∈ vars, entry.1 ≠ other.1 → ¬entry.2.toList <:+: other.1.toList

section

variable {vars : Vars} (hkeys : (vars.map Prod.fst).Nodup)
  (hnames : ∀ entry ∈ vars, BraceFree entry.1.toList)
  (hvalues : ∀ entry ∈ vars, BraceFree entry.2.toList) (hapart : ValuesApart vars)

include hkeys hnames hvalues hapart

/-- The rest of a token that is found in the text of some pieces was there in the template. -/
theorem source_of_text {entry : String × String} (hentry : entry ∈ vars) {replaced : List String}
    (hnew : entry.1 ∉ replaced) {pieces : List Piece} (hpieces : Parsed vars pieces)
    {t : List Char} (ht : t <:+ '\x7b' :: (entry.1.toList ++ closing))
    (h : t <+: text vars replaced pieces) : t <+: pieces.flatMap Piece.source := by
  -- The pieces are matched one by one; only characters can be.
  induction hpieces generalizing t with
  | nil => exact h
  | @char c rest _ _ ih =>
      cases t with
      | nil => exact List.nil_prefix
      | cons d t =>
          obtain ⟨hd, hrest⟩ := List.cons_prefix_cons.mp h
          exact List.cons_prefix_cons.mpr ⟨hd, ih ((List.suffix_cons d t).trans ht) hrest⟩
  | @var other rest hother _ _ =>
      by_cases hne : t = []
      · rw [hne]
        exact List.nil_prefix
      · rw [text, List.flatMap_cons, Piece.text, lookup_of_mem hkeys hother] at h
        split at h
        · next hreplaced =>
            have hdistinct : other.1 ≠ entry.1 := fun heq => hnew (heq ▸ hreplaced)
            exact absurd (infix_of_value (hvalues other hother) hne ht h)
              (hapart other hother entry hentry hdistinct)
        · exact absurd h (not_prefix_token (hnames entry hentry) hne ht other.1)

theorem Parsed.separate {pieces : List Piece} (hpieces : Parsed vars pieces) :
    Separate vars pieces := by
  intro replaced entry hentry hnew before piece after hsplit hne
  rw [hsplit] at hpieces
  cases hpieces.of_append with
  | @char c _ hstarts hafter =>
      intro h
      obtain hfound | hnone := h
      · obtain ⟨hc, hrest⟩ := List.cons_prefix_cons.mp hfound
        have hsource := source_of_text hkeys hnames hvalues hapart hentry hnew hafter
          List.suffix_rfl hrest
        exact hstarts entry hentry (List.cons_prefix_cons.mpr ⟨hc, hsource⟩)
      · exact hnone
  | @var other _ hother _ =>
      rw [Piece.text, lookup_of_mem hkeys hother]
      split
      · exact not_startsIn_of_notMem (hvalues other hother).1 _
      · exact not_startsIn_token (hnames entry hentry) (hnames other hother)
          (fun heq => hne (congrArg Piece.var heq)) _

theorem separable_of_apart (input : String) : Separable vars input := by
  obtain ⟨pieces, hpieces, hinput⟩ := exists_parsed vars input.toList
  exact ⟨pieces, hpieces.separate hkeys hnames hvalues hapart, hinput⟩

end

/-! ## A placeholder in a key -/

theorem not_startsIn_opening {key : String} (hkey : BraceFree key.toList) {x : List Char}
    (hx : BraceFree x) (other : String) (z : List Char) :
    ¬StartsIn (token key) (opening ++ x) (token other ++ z) := by
  intro h
  obtain hfirst | hsecond | hlater := h
  · have hkeys : key.toList ++ closing <+: x ++ (token other ++ z) :=
      (List.cons_prefix_cons.mp (List.cons_prefix_cons.mp hfirst).2).2
    exact absurd (eq_before_brace hkey.1 hx.2 hkeys).2 (by decide)
  · have hrest : '\x7b' :: (key.toList ++ closing) <+: x ++ (token other ++ z) :=
      (List.cons_prefix_cons.mp hsecond).2
    by_cases hnil : x = []
    · rw [hnil] at hrest
      exact not_prefix_token hkey (List.cons_ne_nil _ _) List.suffix_rfl other hrest
    · exact not_prefix_of_notMem hx.1 hnil hrest
  · exact not_startsIn_of_notMem hx.1 _ hlater

theorem replaceFrom_unchanged {token output : List Char} (h : ¬StartsIn token output [])
    (value : List Char) : replaceFrom token value 0 output = output := by
  have hpasses := replaceFrom_passes h value
  rw [List.append_nil, replaceFrom, List.append_nil] at hpasses
  exact hpasses

theorem replaceAll_unchanged {entries : Vars} {output : List Char}
    (h : ∀ entry ∈ entries, ¬StartsIn (token entry.1) output []) :
    replaceAll entries output = output := by
  induction entries with
  | nil => rfl
  | cons entry entries ih =>
      obtain ⟨hhead, hrest⟩ := List.forall_mem_cons.mp h
      rw [replaceAll, List.foldl_cons, replaceFrom_unchanged hhead]
      exact ih hrest

/-- A placeholder inside the braces of another one. -/
def nested (x : List Char) (key : String) (y : List Char) : List Char :=
  opening ++ x ++ (token key ++ (y ++ closing))

section

variable {key : String} {x y : List Char} (hkey : BraceFree key.toList) (hx : BraceFree x)
  (hy : BraceFree y)

include hkey hx hy

theorem replaceFrom_nested (value : List Char) :
    replaceFrom (token key) value 0 (nested x key y) =
      opening ++ (x ++ value ++ y) ++ closing := by
  have hend : ¬StartsIn (token key) (y ++ closing) [] :=
    not_startsIn_of_notMem (notMem_append_closing hy.1) []
  rw [nested, replaceFrom_passes (not_startsIn_opening hkey hx key _),
    replaceFrom_token (token_ne_nil key), replaceFrom_unchanged hend]
  simp only [List.append_assoc]

theorem replaceFrom_nested_other {other : String} (hother : BraceFree other.toList)
    (hne : key ≠ other) (value : List Char) :
    replaceFrom (token other) value 0 (nested x key y) = nested x key y := by
  have hend : ¬StartsIn (token other) (y ++ closing) [] :=
    not_startsIn_of_notMem (notMem_append_closing hy.1) []
  rw [nested, replaceFrom_passes (not_startsIn_opening hother hx key _),
    replaceFrom_passes (not_startsIn_token hother hkey hne _), replaceFrom_unchanged hend]

end

theorem exists_perm_cons_cons {vars : Vars} {a b : String × String} (ha : a ∈ vars) (hb : b ∈ vars)
    (hne : b ≠ a) : ∃ rest, (a :: b :: rest).Perm vars := by
  have hb' : b ∈ vars.erase a := (List.mem_erase_of_ne hne).mpr hb
  refine ⟨(vars.erase a).erase b, ?_⟩
  exact ((List.perm_cons_erase hb').symm.cons a).trans (List.perm_cons_erase ha).symm

section

variable {vars : Vars} (hkeys : (vars.map Prod.fst).Nodup)
  (hnames : ∀ entry ∈ vars, BraceFree entry.1.toList)
  (hvalues : ∀ entry ∈ vars, BraceFree entry.2.toList)
  {a b : String × String} (ha : a ∈ vars) (hb : b ∈ vars)
  {x y : List Char} (hxy : x ++ a.2.toList ++ y = b.1.toList) {rest : Vars}

include hnames hb hxy

theorem braceFree_around : BraceFree x ∧ BraceFree y := by
  have hplain := hnames b hb
  rw [← hxy] at hplain
  simp only [BraceFree, List.mem_append, not_or] at hplain
  exact ⟨⟨hplain.1.1.1, hplain.2.1.1⟩, hplain.1.2, hplain.2.2⟩

include ha

theorem replaceFrom_inner :
    replaceFrom (token a.1) a.2.toList 0 (nested x a.1 y) = token b.1 := by
  obtain ⟨hx, hy⟩ := braceFree_around hnames hb hxy
  rw [replaceFrom_nested (hnames a ha) hx hy, hxy]
  rfl

/-- With `b` first, it is formed too late. -/
theorem replaceAll_outer_first (hne : a.1 ≠ b.1)
    (hrest : ∀ entry ∈ rest, entry ∈ vars ∧ b.1 ≠ entry.1) :
    replaceAll (b :: a :: rest) (nested x a.1 y) = token b.1 := by
  obtain ⟨hx, hy⟩ := braceFree_around hnames hb hxy
  rw [replaceAll, List.foldl_cons, List.foldl_cons,
    replaceFrom_nested_other (hnames a ha) hx hy (hnames b hb) hne,
    replaceFrom_inner hnames ha hb hxy]
  refine replaceAll_unchanged fun entry hentry => ?_
  obtain ⟨hmem, hdistinct⟩ := hrest entry hentry
  exact not_startsIn_token (hnames entry hmem) (hnames b hb) hdistinct []

include hvalues

/-- With `a` first, the placeholder of `b` is formed and then replaced. -/
theorem replaceAll_inner_first :
    replaceAll (a :: b :: rest) (nested x a.1 y) = b.2.toList := by
  have houter := replaceFrom_token (token_ne_nil b.1) b.2.toList []
  rw [List.append_nil, replaceFrom, List.append_nil] at houter
  rw [replaceAll, List.foldl_cons, List.foldl_cons, replaceFrom_inner hnames ha hb hxy, houter]
  exact replaceAll_unchanged fun entry _ => not_startsIn_of_notMem (hvalues b hb).1 []

include hkeys

/-- The order matters to the template with `a` in place of its value in the key of `b`. -/
theorem order_matters (hne : a.1 ≠ b.1) :
    ∃ input order order', order.Perm vars ∧ order'.Perm vars ∧
      renderString order input ≠ renderString order' input := by
  obtain ⟨rest, hperm⟩ := exists_perm_cons_cons ha hb fun heq => hne (congrArg Prod.fst heq).symm
  have hrest : ∀ entry ∈ rest, entry ∈ vars ∧ b.1 ≠ entry.1 := by
    intro entry hentry
    have hnodup := (hperm.map Prod.fst).nodup_iff.mpr hkeys
    rw [List.map_cons, List.map_cons, List.nodup_cons, List.nodup_cons] at hnodup
    refine ⟨hperm.subset (List.mem_cons_of_mem a (List.mem_cons_of_mem b hentry)), fun heq => ?_⟩
    exact hnodup.2.1 (heq ▸ List.mem_map_of_mem hentry)
  refine ⟨String.ofList (nested x a.1 y), a :: b :: rest, b :: a :: rest, hperm,
    (List.Perm.swap a b rest).trans hperm, ?_⟩
  have hbraces := occurs_of_token (List.infix_refl (token b.1))
  rw [renderString_eq, renderString_eq, String.toList_ofList,
    replaceAll_inner_first hnames hvalues ha hb hxy,
    replaceAll_outer_first hnames ha hb hxy hne hrest, hbraces.1, hbraces.2,
    not_occurs_of_notMem (hvalues b hb).1]
  intro h
  cases h

end

theorem order_free_iff {vars : Vars} (hkeys : (vars.map Prod.fst).Nodup)
    (hnames : ∀ entry ∈ vars, BraceFree entry.1.toList)
    (hvalues : ∀ entry ∈ vars, BraceFree entry.2.toList) :
    (∀ input order order', order.Perm vars → order'.Perm vars →
      renderString order input = renderString order' input) ↔ ValuesApart vars := by
  constructor
  · intro h a ha b hb hne hpart
    obtain ⟨x, y, hxy⟩ := hpart
    obtain ⟨input, order, order', horder, horder', hdiffer⟩ :=
      order_matters hkeys hnames hvalues ha hb hxy hne
    exact hdiffer (h input order order' horder horder')
  · intro hapart input order order'
    exact renderString_perm hkeys (separable_of_apart hkeys hnames hvalues hapart input)

/-! ## Templates -/

theorem renderValue_congr {vars vars' : Vars} {value : Json}
    (h : ∀ path s, value.descend path = some (.string s) →
      renderString vars s = renderString vars' s) :
    renderValue vars value = renderValue vars' value := by
  induction value using Json.children_induction with
  | h value ih =>
      have hchildren : ∀ child ∈ value.children,
          renderValue vars child = renderValue vars' child := by
        intro child hchild
        refine ih child hchild fun path s hpath => ?_
        obtain ⟨path', hpath'⟩ := Json.descend_of_child hchild hpath
        exact h path' s hpath'
      cases value with
      | null => rfl
      | bool b => rfl
      | number n => rfl
      | string s => rw [renderValue, renderValue, h [] s rfl]
      | array items =>
          rw [renderValue, renderValue, renderItems_eq, renderItems_eq]
          exact congrArg (Except.map Json.array) (mapM_congr hchildren)
      | object fields =>
          have hentries : ∀ entry ∈ fields, renderEntry vars entry = renderEntry vars' entry := by
            intro entry hentry
            rw [renderEntry, renderEntry, hchildren entry.2 (List.mem_map_of_mem hentry)]
          rw [renderValue, renderValue, renderFields_eq, renderFields_eq, mapM_congr hentries]

/-- The strings that are rendered for each machine. -/
def TenantTemplate.HasString (template : TenantTemplate) (s : String) : Prop :=
  (∃ path, template.machine.config.descend path = some (.string s)) ∨
    s ∈ template.metadata.map Prod.snd ∨ template.machine.name = some s ∨
    template.machine.region = some s

theorem renderOption_congr {vars vars' : Vars} {o : Option String}
    (h : ∀ s, o = some s → renderString vars s = renderString vars' s) :
    renderOption vars o = renderOption vars' o := by
  cases o with
  | none => rfl
  | some s => rw [renderOption, renderOption, h s rfl]

theorem renderMachine_congr {template : TenantTemplate} {vars vars' : Vars}
    (h : ∀ s, template.HasString s → renderString vars s = renderString vars' s) :
    renderMachine template vars = renderMachine template vars' := by
  have hconfig : renderValue vars template.machine.config =
      renderValue vars' template.machine.config :=
    renderValue_congr fun path s hs => h s (.inl ⟨path, hs⟩)
  have hname : renderOption vars template.machine.name = renderOption vars' template.machine.name :=
    renderOption_congr fun s hs => h s (.inr (.inr (.inl hs)))
  have hregion : renderOption vars template.machine.region =
      renderOption vars' template.machine.region :=
    renderOption_congr fun s hs => h s (.inr (.inr (.inr hs)))
  unfold renderMachine
  rw [hconfig, hname, hregion, mapM_congr]
  intro entry hentry
  have hentry := h entry.2 (.inr (.inl (List.mem_map_of_mem hentry)))
  obtain ⟨key, value⟩ := entry
  dsimp only at hentry ⊢
  rw [hentry]

theorem Vars.nodup_insert {vars : Vars} (hkeys : (vars.map Prod.fst).Nodup) (key value : String) :
    ((vars.insert key value).map Prod.fst).Nodup := by
  rw [Vars.insert, List.map_cons, List.nodup_cons]
  refine ⟨?_, hkeys.sublist (List.filter_sublist.map Prod.fst)⟩
  simp

theorem templateVars_nodup (tenantId : String) (accessToken : Option String) {extraVars : Vars}
    (hextra : (extraVars.map Prod.fst).Nodup) (idx : Nat) :
    ((templateVars tenantId accessToken extraVars idx).map Prod.fst).Nodup := by
  have hvars := Vars.nodup_insert (Vars.nodup_insert hextra "tenant_id" tenantId) "index"
    (toString (idx + 1))
  cases accessToken with
  | none => exact hvars
  | some token => exact Vars.nodup_insert hvars "access_token" token

/-- One machine, with nothing to render but its name. -/
def namedTemplate (name : String) : TenantTemplate where
  version := 1
  app := "vault-tenants"
  machineCount := 1
  machine := {
    name := some name
    region := none
    config := .object []
    leaseTtl := none
    skipLaunch := none
    skipServiceRegistration := none
    lsvd := none }
  metadata := []

theorem namedTemplate_strings {name s : String} (h : (namedTemplate name).HasString s) :
    s = name := by
  obtain hconfig | hmetadata | hname | hregion := h
  · obtain ⟨path, hpath⟩ := hconfig
    cases path with
    | nil => cases hpath
    | cons i path => cases hpath
  · cases hmetadata
  · exact (Option.some.inj hname).symm
  · cases hregion

/-- The name is a placeholder with another one in its key. -/
theorem rendering_depends_on_order :
    (∃ machine, renderTemplate (fun _ vars => vars)
        (namedTemplate "\x7b\x7bdisk\x7b\x7bindex\x7d\x7d\x7d\x7d") "alpha" none
        [("disk1", "vol")] = .ok [machine] ∧ machine.name = some "vol") ∧
    ∃ e, renderTemplate (fun _ vars => vars.reverse)
        (namedTemplate "\x7b\x7bdisk\x7b\x7bindex\x7d\x7d\x7d\x7d") "alpha" none
        [("disk1", "vol")] = .error e :=
  ⟨⟨_, rfl, rfl⟩, _, rfl⟩

/-- The order of the map makes no difference to a string in which, whichever variables have been
    replaced, the placeholder of another starts only in a piece that is this placeholder. With
    the map as extra variables, it makes none to a template of which every string is like this
    for the variables of every machine. Where keys and values are without braces, it makes
    none to any string if and only if no value is a part of the key of another variable. -/
theorem rendering_order_free (vars : Vars) (hkeys : (vars.map Prod.fst).Nodup) :
    (∀ input order order', Separable vars input → order.Perm vars → order'.Perm vars →
      renderString order input = renderString order' input) ∧
    (∀ (template : TenantTemplate) (tenantId : String) (accessToken : Option String)
      (order order' : Nat → Vars → Vars),
      (∀ idx < template.machineCount, ∀ s, template.HasString s →
        Separable (templateVars tenantId accessToken vars idx) s) →
      (∀ idx vars, (order idx vars).Perm vars) → (∀ idx vars, (order' idx vars).Perm vars) →
        renderTemplate order template tenantId accessToken vars =
          renderTemplate order' template tenantId accessToken vars) ∧
    ((∀ entry ∈ vars, BraceFree entry.1.toList) → (∀ entry ∈ vars, BraceFree entry.2.toList) →
      ((∀ input order order', order.Perm vars → order'.Perm vars →
        renderString order input = renderString order' input) ↔ ValuesApart vars)) := by
  refine ⟨?_, ?_, order_free_iff hkeys⟩
  · intro input order order' hinput horder horder'
    exact renderString_perm hkeys hinput horder horder'
  · intro template tenantId accessToken order order' hstrings horder horder'
    refine mapM_congr fun idx hidx => renderMachine_congr fun s hs => ?_
    exact renderString_perm (templateVars_nodup tenantId accessToken hkeys idx)
      (hstrings idx (List.mem_range.mp hidx) s hs) (horder idx _) (horder' idx _)

theorem rendering_order_free_two :
    renderString [("index", "1"), ("disk1", "vol")] "\x7b\x7bdisk1\x7d\x7d" =
      renderString [("disk1", "vol"), ("index", "1")] "\x7b\x7bdisk1\x7d\x7d" ∧
    renderTemplate (fun _ vars => vars) (namedTemplate "\x7b\x7bindex\x7d\x7d") "alpha" none [] =
      renderTemplate (fun _ vars => vars.reverse) (namedTemplate "\x7b\x7bindex\x7d\x7d")
        "alpha" none [] ∧
    ∀ input, renderString [("tenant_id", "alpha"), ("index", "1")] input =
      renderString [("index", "1"), ("tenant_id", "alpha")] input := by
  refine ⟨?_, ?_, fun input => ?_⟩
  · refine (rendering_order_free [("index", "1"), ("disk1", "vol")] (by decide)).1 _ _ _ ?_
      (.refl _) (by decide)
    exact ⟨[.var "disk1"], separate_of_plain (by decide) (by decide) (by decide), rfl⟩
  · refine (rendering_order_free [] List.nodup_nil).2.1 _ _ _ _ _ ?_ (fun _ vars => .refl vars)
      fun _ vars => vars.reverse_perm
    intro idx hidx s hs
    have hidx : idx = 0 := Nat.lt_one_iff.mp hidx
    rw [hidx, namedTemplate_strings hs]
    exact ⟨[.var "index"], separate_of_plain (by decide) (by decide) (by decide), rfl⟩
  · have hapart : ValuesApart [("tenant_id", "alpha"), ("index", "1")] := by
      unfold ValuesApart
      decide +kernel
    exact ((rendering_order_free [("tenant_id", "alpha"), ("index", "1")] (by decide)).2.2
      (by decide) (by decide)).mpr hapart input _ _ (.refl _) (by decide)

end FlyVault.Admin
