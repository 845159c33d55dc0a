/-
  Replacing placeholders: the loop of `render_string` in `crates/admin/src/template.rs`.

  The loop takes the variables in the order of the map and replaces, for each, every occurrence
  of its placeholder in the text that the ones before have left. Seen as a sequence of pieces
  (`Piece`), the template is to become the sequence with every placeholder at its value.

  `StartsIn` says that an occurrence starts inside a part of the text. If the placeholder of a
  variable that has not been replaced starts in no other piece than its own, whichever
  variables have been replaced (`Separate`), every step of the loop does to the pieces what it is
  meant to do, and the result is the same in every order: `replaceAll_pieces`. A template of
  brace-free literals and placeholders is of this kind as long as no value has a brace in it
  (`separate_of_plain`), but the values alone do not settle it: in a template with one placeholder
  inside another, the result depends on the order.
-/
import FlyVault.Admin.Template

namespace FlyVault.Admin

/-! ## Occurrences -/

/-- An occurrence of the token in the text `x ++ y` starts in `x`. -/
def StartsIn (token : List Char) : List Char → List Char → Prop
  | [], _ => False
  | c :: x, y => token <+: c :: (x ++ y) ∨ StartsIn token x y

theorem replaceFrom_skip (token value x y : List Char) :
    replaceFrom token value x.length (x ++ y) = replaceFrom token value 0 y := by
  induction x with
  | nil => rfl
  | cons c x ih => exact ih

theorem replaceFrom_token {token : List Char} (htoken : token ≠ []) (value y : List Char) :
    replaceFrom token value 0 (token ++ y) = value ++ replaceFrom token value 0 y := by
  cases token with
  | nil => exact absurd rfl htoken
  | cons c token =>
      have hfound : (c :: token).isPrefixOf (c :: (token ++ y)) := by
        rw [List.isPrefixOf_iff_prefix]
        exact List.prefix_append (c :: token) y
      rw [List.cons_append, replaceFrom, if_pos hfound]
      exact congrArg (value ++ ·) (replaceFrom_skip (c :: token) value token y)

theorem replaceFrom_passes {token x y : List Char} (h : ¬StartsIn token x y)
    (value : List Char) :
    replaceFrom token value 0 (x ++ y) = x ++ replaceFrom token value 0 y := by
  induction x with
  | nil => rfl
  | cons c x ih =>
      have hhead : ¬token.isPrefixOf (c :: (x ++ y)) := by
        rw [List.isPrefixOf_iff_prefix]
        exact fun hfound => h (.inl hfound)
      rw [List.cons_append, replaceFrom, if_neg hhead, ih fun hrest => h (.inr hrest)]
      rfl

theorem occurs_iff {token text : List Char} : occurs token text ↔ token <:+: text := by
  induction text with
  | nil =>
      rw [occurs, List.isEmpty_iff, List.infix_nil]
  | cons c text ih =>
      rw [occurs, Bool.or_eq_true, List.isPrefixOf_iff_prefix, ih, List.infix_cons_iff]

/-! ## Pieces -/

/-- A piece of a template string. -/
inductive Piece
  | char (c : Char)
  | var (key : String)
  deriving DecidableEq, Repr

/-- The token of a variable: its key between the braces. -/
def token (key : String) : List Char := opening ++ key.toList ++ closing

theorem token_ne_nil (key : String) : token key ≠ [] :=
  List.cons_ne_nil _ _

/-- How the template has the piece. -/
def Piece.source : Piece → List Char
  | .char c => [c]
  | .var key => token key

/-- The piece in the text in which the variables `replaced` have been replaced. A variable that
    is not in the map stays as it is. -/
def Piece.text (vars : Vars) (replaced : List String) : Piece → List Char
  | .char c => [c]
  | .var key =>
      if key ∈ replaced then ((vars.lookup key).map String.toList).getD (token key) else token key

/-- The whole text. -/
def text (vars : Vars) (replaced : List String) (pieces : List Piece) : List Char :=
  pieces.flatMap (Piece.text vars replaced)

theorem text_nil (vars : Vars) (pieces : List Piece) :
    text vars [] pieces = pieces.flatMap Piece.source := by
  refine List.flatMap_congr fun piece _ => ?_
  cases piece with
  | char c => rfl
  | var key => rw [Piece.text, if_neg List.not_mem_nil, Piece.source]

theorem Piece.text_congr {vars : Vars} {replaced others : List String}
    (h : ∀ key, key ∈ replaced ↔ key ∈ others) (piece : Piece) :
    piece.text vars replaced = piece.text vars others := by
  cases piece with
  | char c => rfl
  | var key => simp only [Piece.text, h]

theorem text_congr {vars : Vars} {replaced others : List String}
    (h : ∀ key, key ∈ replaced ↔ key ∈ others) (pieces : List Piece) :
    text vars replaced pieces = text vars others pieces :=
  List.flatMap_congr fun piece _ => piece.text_congr h

/-- Whichever variables have been replaced, the placeholder of one that has not starts in no
    piece but its own: no value and no text next to it forms one, and none overlaps another. -/
def Separate (vars : Vars) (pieces : List Piece) : Prop :=
  ∀ replaced, ∀ entry ∈ vars, entry.1 ∉ replaced →
    ∀ before piece after, pieces = before ++ piece :: after → piece ≠ .var entry.1 →
      ¬StartsIn (token entry.1) (piece.text vars replaced) (text vars replaced after)

/-- A template string that can be taken apart in this way. -/
def Separable (vars : Vars) (input : String) : Prop :=
  ∃ pieces, Separate vars pieces ∧ input.toList = pieces.flatMap Piece.source

/-! ## The loop -/

/-- The loop of `render_string`. -/
def replaceAll (entries : Vars) (output : List Char) : List Char :=
  entries.foldl (fun output entry => replaceFrom (token entry.1) entry.2.toList 0 output) output

theorem renderString_eq (vars : Vars) (input : String) :
    renderString vars input =
      if occurs opening (replaceAll vars input.toList) &&
          occurs closing (replaceAll vars input.toList) then
        .error (anyhow s!"unresolved template variables in '{input}'")
      else .ok (String.ofList (replaceAll vars input.toList)) :=
  rfl

/-- One replacement. The pieces are those of the text and of the text it becomes. -/
theorem replaceFrom_pieces {token value : List Char} (htoken : token ≠ [])
    {old new : Piece → List Char} {own : Piece} (hold : old own = token) (hnew : new own = value)
    (hother : ∀ piece, piece ≠ own → new piece = old piece) {pieces : List Piece}
    (hstarts : ∀ before piece after, pieces = before ++ piece :: after → piece ≠ own →
      ¬StartsIn token (old piece) (after.flatMap old)) :
    replaceFrom token value 0 (pieces.flatMap old) = pieces.flatMap new := by
  induction pieces with
  | nil => rfl
  | cons piece pieces ih =>
      have hrest : replaceFrom token value 0 (pieces.flatMap old) = pieces.flatMap new := by
        apply ih
        intro before piece' after hpieces
        exact hstarts (piece :: before) piece' after (congrArg (piece :: ·) hpieces)
      rw [List.flatMap_cons, List.flatMap_cons]
      by_cases hown : piece = own
      · rw [hown, hold, hnew, replaceFrom_token htoken, hrest]
      · rw [replaceFrom_passes (hstarts [] piece pieces rfl hown), hrest, hother piece hown]

theorem lookup_of_mem {vars : Vars} (hkeys : (vars.map Prod.fst).Nodup) {entry : String × String}
    (hentry : entry ∈ vars) : vars.lookup entry.1 = some entry.2 := by
  obtain ⟨before, after, hvars⟩ := List.append_of_mem hentry
  refine List.lookup_eq_some_iff.mpr ⟨before, after, hvars, fun other hother => ?_⟩
  rw [hvars, List.map_append, List.nodup_append] at hkeys
  have hne := hkeys.2.2 other.1 (List.mem_map_of_mem hother) entry.1 List.mem_cons_self
  exact bne_iff_ne.mpr hne.symm

theorem mem_of_lookup {vars : Vars} {key value : String} (h : vars.lookup key = some value) :
    (key, value) ∈ vars := by
  obtain ⟨before, after, hvars, -⟩ := List.lookup_eq_some_iff.mp h
  rw [hvars]
  exact List.mem_append_right before List.mem_cons_self

/-- One round of the loop: the text in which `replaced` have been replaced becomes the one in
    which one more variable has. -/
theorem replace_step {vars : Vars} (hkeys : (vars.map Prod.fst).Nodup) {pieces : List Piece}
    (hseparate : Separate vars pieces) {entry : String × String} (hentry : entry ∈ vars)
    {replaced : List String} (hnew : entry.1 ∉ replaced) :
    replaceFrom (token entry.1) entry.2.toList 0 (text vars replaced pieces) =
      text vars (entry.1 :: replaced) pieces := by
  apply @replaceFrom_pieces _ _ (token_ne_nil entry.1) _ _ (.var entry.1)
  · exact if_neg hnew
  · rw [Piece.text, if_pos List.mem_cons_self, lookup_of_mem hkeys hentry]
    rfl
  · intro piece hne
    cases piece with
    | char c => rfl
    | var key =>
        have hkey : key ≠ entry.1 := fun heq => hne (congrArg Piece.var heq)
        simp only [Piece.text, List.mem_cons, hkey, false_or]
  · exact hseparate replaced entry hentry hnew

/-- The whole loop, from any point of it. -/
theorem replaceAll_pieces {vars : Vars} (hkeys : (vars.map Prod.fst).Nodup) {pieces : List Piece}
    (hseparate : Separate vars pieces) {entries : Vars} {replaced : List String}
    (horder : (entries.map Prod.fst ++ replaced).Perm (vars.map Prod.fst))
    (hmem : ∀ entry ∈ entries, entry ∈ vars) :
    replaceAll entries (text vars replaced pieces) = text vars (vars.map Prod.fst) pieces := by
  -- Induction on what is left of the map; the variables taken go over to `replaced`.
  induction entries generalizing replaced with
  | nil => exact text_congr (fun key => horder.mem_iff) pieces
  | cons entry entries ih =>
      obtain ⟨hentry, hrest⟩ := List.forall_mem_cons.mp hmem
      have hnodup := horder.nodup_iff.mpr hkeys
      rw [List.map_cons, List.cons_append, List.nodup_cons] at hnodup
      have hnew : entry.1 ∉ replaced := fun h => hnodup.1 (List.mem_append_right _ h)
      rw [replaceAll, List.foldl_cons, replace_step hkeys hseparate hentry hnew]
      exact ih (List.perm_middle.trans horder) hrest

/-- What `render_string` gives, whatever the order. -/
theorem renderString_of_separate {vars : Vars} (hkeys : (vars.map Prod.fst).Nodup)
    {pieces : List Piece} (hseparate : Separate vars pieces) {input : String}
    (hinput : input.toList = pieces.flatMap Piece.source) {order : Vars}
    (horder : order.Perm vars) :
    renderString order input =
      if occurs opening (text vars (vars.map Prod.fst) pieces) &&
          occurs closing (text vars (vars.map Prod.fst) pieces) then
        .error (anyhow s!"unresolved template variables in '{input}'")
      else .ok (String.ofList (text vars (vars.map Prod.fst) pieces)) := by
  have hloop := @replaceAll_pieces vars hkeys pieces hseparate order []
    (by simpa using horder.map Prod.fst) fun entry => horder.mem_iff.mp
  rw [text_nil] at hloop
  rw [renderString_eq, hinput, hloop]

theorem renderString_perm {vars : Vars} (hkeys : (vars.map Prod.fst).Nodup) {input : String}
    (hinput : Separable vars input) {order order' : Vars} (horder : order.Perm vars)
    (horder' : order'.Perm vars) : renderString order input = renderString order' input := by
  obtain ⟨pieces, hseparate, hpieces⟩ := hinput
  rw [renderString_of_separate hkeys hseparate hpieces horder,
    renderString_of_separate hkeys hseparate hpieces horder']

/-! ## Brace-free values -/

def BraceFree (s : List Char) : Prop := '\x7b' ∉ s ∧ '\x7d' ∉ s

instance : DecidablePred BraceFree := fun _ => inferInstanceAs (Decidable (_ ∧ _))

/-- Neither a literal nor the key of a placeholder has a brace in it. -/
def Piece.Plain : Piece → Prop
  | .char c => BraceFree [c]
  | .var key => BraceFree key.toList

instance : DecidablePred Piece.Plain
  | .char c => inferInstanceAs (Decidable (BraceFree [c]))
  | .var key => inferInstanceAs (Decidable (BraceFree key.toList))

theorem not_prefix_of_notMem {c : Char} {w x y : List Char} (hx : c ∉ x) (hne : x ≠ []) :
    ¬c :: w <+: x ++ y := by
  cases x with
  | nil => exact absurd rfl hne
  | cons d x =>
      intro h
      have hc := (List.cons_prefix_cons.mp h).1
      rw [hc] at hx
      exact hx List.mem_cons_self

theorem not_startsIn_of_notMem {key : String} {x : List Char} (hx : '\x7b' ∉ x) (y : List Char) :
    ¬StartsIn (token key) x y := by
  induction x with
  | nil => exact id
  | cons c x ih =>
      intro h
      obtain hhead | hrest := h
      · exact not_prefix_of_notMem hx (List.cons_ne_nil c x) hhead
      · exact ih (fun hmem => hx (List.mem_cons_of_mem c hmem)) hrest

/-- What stands before the first brace is determined, and so is that brace. -/
theorem eq_before_brace {b b' : Char} {x x' y y' : List Char} (hx : b' ∉ x) (hx' : b ∉ x')
    (h : x ++ b :: y <+: x' ++ b' :: y') : x = x' ∧ b = b' := by
  induction x generalizing x' with
  | nil =>
      cases x' with
      | nil => exact ⟨rfl, (List.cons_prefix_cons.mp h).1⟩
      | cons c x' =>
          have hc := (List.cons_prefix_cons.mp h).1
          rw [← hc] at hx'
          exact absurd List.mem_cons_self hx'
  | cons c x ih =>
      cases x' with
      | nil =>
          have hc := (List.cons_prefix_cons.mp h).1
          rw [hc] at hx
          exact absurd List.mem_cons_self hx
      | cons c' x' =>
          obtain ⟨hc, hrest⟩ := List.cons_prefix_cons.mp h
          obtain ⟨heq, hbrace⟩ := ih (fun hmem => hx (List.mem_cons_of_mem c hmem))
            (fun hmem => hx' (List.mem_cons_of_mem c' hmem)) hrest
          exact ⟨congrArg₂ List.cons hc heq, hbrace⟩

theorem notMem_append_closing {x : List Char} (hx : '\x7b' ∉ x) : '\x7b' ∉ x ++ closing := by
  rw [List.mem_append, not_or]
  exact ⟨hx, by decide⟩

theorem not_startsIn_token {key key' : String} (hkey : BraceFree key.toList)
    (hkey' : BraceFree key'.toList) (hne : key' ≠ key) (y : List Char) :
    ¬StartsIn (token key) (token key') y := by
  have hend := notMem_append_closing hkey'.1
  intro h
  obtain hfirst | hsecond | hlater := h
  · have hkeys : key.toList ++ closing <+: key'.toList ++ closing ++ y :=
      (List.cons_prefix_cons.mp (List.cons_prefix_cons.mp hfirst).2).2
    rw [List.append_assoc] at hkeys
    exact hne (String.toList_inj.mp (eq_before_brace hkey.2 hkey'.2 hkeys).1.symm)
  · -- One brace further on, the second brace would have to be in the key.
    exact not_prefix_of_notMem hend (by simp [closing]) (List.cons_prefix_cons.mp hsecond).2
  · exact not_startsIn_of_notMem hend y hlater

/-- A template of brace-free literals and placeholders, with values that have no braces. -/
theorem separate_of_plain {vars : Vars} (hkeys : ∀ entry ∈ vars, BraceFree entry.1.toList)
    (hvalues : ∀ entry ∈ vars, BraceFree entry.2.toList) {pieces : List Piece}
    (hpieces : ∀ piece ∈ pieces, piece.Plain) : Separate vars pieces := by
  intro replaced entry hentry hnew before piece after hsplit hne
  have hplain : piece.Plain := by
    apply hpieces
    rw [hsplit]
    exact List.mem_append_right before List.mem_cons_self
  cases piece with
  | char c => exact not_startsIn_of_notMem hplain.1 _
  | var key =>
      have htoken := not_startsIn_token (hkeys entry hentry) hplain
        (fun heq => hne (congrArg Piece.var heq)) (text vars replaced after)
      rw [Piece.text]
      split
      · cases hlookup : vars.lookup key with
        | none => exact htoken
        | some value =>
            exact not_startsIn_of_notMem (hvalues _ (mem_of_lookup hlookup)).1 _
      · exact htoken

end FlyVault.Admin
