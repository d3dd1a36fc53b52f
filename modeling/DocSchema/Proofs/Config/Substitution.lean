import DocSchema.Config.Substitution
import DocSchema.Proofs.Value.Proper

/-!
# One pass of substitution

A text is made of references to variables and of characters outside of them. Replacing its references all at
once gives another text; the names are replaced one after the other, though, each in the text that the former
ones have left. Both come to the same if no reference stands inside of the name of another, and if none comes
up in the text with all references replaced: then, while some references are still pending, the others stand
where they stood before, and nowhere else. All of this needs the variables to be looked up: the first name that cannot be
written for the system ends the substitution.

- `pieces`: the references of a text and its other characters; `flatMap_text_pieces`, `pieces_leftmost`.
- `Apart`: no reference of a text is hidden in it, or comes up, but those that are pieces.
- `replaceAll_rendered`: replacing one name leaves the pieces, of which those of the name are replaced.
- `substitute_failsWith`: a substitution fails with the first name that cannot be written, or not at all.
- `substitute_single_pass`: texts whose references are apart are replaced at once, and nothing else changes.
-/

namespace DocSchema.Config

open Text (replaceAll replaceAll_start replaceAll_cons_of_not_prefix replaceAll_append_of_absent)

/-! ## Pieces of a text -/

/-- A piece of a text: a reference to a variable, or a character outside of the references. -/
inductive Piece
  | char (c : Char)
  | reference (name : List Char)
  deriving DecidableEq

/-- The text that stands for a variable. -/
def valueOf (env : Environment) (name : List Char) : List Char :=
  ((env (String.ofList name)).getD "").toList

namespace Piece

/-- The characters of a piece. -/
def text : Piece → List Char
  | char c => [c]
  | reference name => Config.reference name

/-- The characters that come in the place of a piece. -/
def value (env : Environment) : Piece → List Char
  | char c => [c]
  | reference name => valueOf env name

/-- The characters of a piece after some names have been replaced. -/
def rendered (env : Environment) (done : List (List Char)) : Piece → List Char
  | char c => [c]
  | reference name => if name ∈ done then valueOf env name else Config.reference name

/-- The name that a piece refers to. -/
def name? : Piece → Option (List Char)
  | char _ => none
  | reference name => some name

end Piece

/-- The pieces of a text, from the left: a reference as soon as one begins, and any other character on its
own. -/
def pieces : List Char → List Piece
  | [] => []
  | [c] => [.char c]
  | a :: b :: cs =>
    if a = '$' ∧ b = '{' then
      match _h : takeName cs with
      | some (c :: name, rest) => .reference (c :: name) :: pieces rest
      | _ => .char a :: pieces (b :: cs)
    else .char a :: pieces (b :: cs)
termination_by cs => cs.length
decreasing_by
  all_goals simp_wf
  have := length_takeName _h
  omega

/-- A text with all of its references replaced at once. -/
def substitutedAtOnce (env : Environment) (s : String) : String :=
  String.ofList ((pieces s.toList).flatMap (Piece.value env))

theorem reference_eq (name : List Char) : reference name = '$' :: '{' :: (name ++ ['}']) := rfl

theorem takeName_eq_some_iff {cs name rest : List Char} :
    takeName cs = some (name, rest) ↔ cs = name ++ '}' :: rest ∧ '}' ∉ name := by
  induction cs generalizing name with
  | nil => simp [takeName]
  | cons c cs ih =>
    by_cases hc : c = '}'
    · rw [takeName, if_pos hc, hc]
      cases name with
      | nil => simp [eq_comm]
      | cons d name =>
        simp only [Option.some.injEq, Prod.mk.injEq, reduceCtorEq, false_and, List.cons_append, List.cons.injEq,
          List.mem_cons, not_or, false_iff]
        rintro ⟨⟨hd, -⟩, hne, -⟩
        exact hne hd
    · rw [takeName, if_neg hc, Option.map_eq_some_iff]
      cases name with
      | nil => simp [hc]
      | cons d name =>
        constructor
        · rintro ⟨⟨name', rest'⟩, htake, heq⟩
          simp only [Prod.mk.injEq, List.cons.injEq] at heq
          obtain ⟨⟨rfl, rfl⟩, rfl⟩ := heq
          obtain ⟨rfl, hname⟩ := ih.1 htake
          exact ⟨rfl, by simp [hname, Ne.symm hc]⟩
        · rintro ⟨heq, hname⟩
          rw [List.cons_append, List.cons.injEq] at heq
          rw [List.mem_cons, not_or] at hname
          exact ⟨(name, rest), ih.2 ⟨heq.2, hname.2⟩, by rw [heq.1]⟩

/-- The names of a text are those of its pieces. -/
theorem namesIn_eq (cs : List Char) : namesIn cs = (pieces cs).filterMap Piece.name? := by
  fun_induction pieces cs with
  | case1 => simp [namesIn]
  | case2 c => simp [namesIn, Piece.name?]
  | case3 a b cs h c name rest htake ih =>
    rw [namesIn, if_pos h]
    split
    · rename_i htake'
      rw [htake] at htake'
      cases htake'
      rw [ih]
      rfl
    · rename_i hnone
      exact absurd htake (hnone c name rest)
  | case4 a b cs h hnone ih =>
    rw [namesIn, if_pos h]
    split
    · rename_i htake
      exact absurd htake (hnone _ _ _)
    · rw [ih]
      rfl
  | case5 a b cs h ih =>
    rw [namesIn, if_neg h, ih]
    rfl

theorem mem_namesIn_iff {cs name : List Char} : name ∈ namesIn cs ↔ .reference name ∈ pieces cs := by
  rw [namesIn_eq, List.mem_filterMap]
  constructor
  · rintro ⟨p, hp, hname⟩
    cases p with
    | char c => cases hname
    | reference m =>
      rw [Piece.name?, Option.some.injEq] at hname
      exact hname ▸ hp
  · intro hp
    exact ⟨_, hp, rfl⟩

/-- The pieces of a text make up the text. -/
theorem flatMap_text_pieces (cs : List Char) : (pieces cs).flatMap Piece.text = cs := by
  fun_induction pieces cs with
  | case1 => rfl
  | case2 c => rfl
  | case3 a b cs h c name rest htake ih =>
    obtain ⟨rfl, rfl⟩ := h
    rw [List.flatMap_cons, ih, (takeName_eq_some_iff.1 htake).1]
    simp [Piece.text, reference]
  | case4 a b cs h hnone ih => rw [List.flatMap_cons, ih, Piece.text, List.singleton_append]
  | case5 a b cs h ih => rw [List.flatMap_cons, ih, Piece.text, List.singleton_append]

/-- A name is not empty and has no closing brace. -/
theorem name_of_mem_pieces {cs name : List Char} (h : .reference name ∈ pieces cs) : name ≠ [] ∧ '}' ∉ name := by
  fun_induction pieces cs with
  | case1 => cases h
  | case2 c => simp at h
  | case3 a b cs hstart c name' rest htake ih =>
    rcases List.mem_cons.1 h with hfirst | hlater
    · rw [Piece.reference.injEq] at hfirst
      rw [hfirst]
      exact ⟨List.cons_ne_nil _ _, (takeName_eq_some_iff.1 htake).2⟩
    · exact ih hlater
  | case4 a b cs hstart hnone ih => exact ih (by simpa using h)
  | case5 a b cs hstart ih => exact ih (by simpa using h)

theorem reference_prefix_iff {name text : List Char} {a b : Char} (hname : '}' ∉ name) :
    reference name <+: a :: b :: text ↔ a = '$' ∧ b = '{' ∧ ∃ rest, takeName text = some (name, rest) := by
  simp only [takeName_eq_some_iff, hname, not_false_eq_true, and_true]
  constructor
  · rintro ⟨rest, h⟩
    simp [reference] at h
    exact ⟨h.1.symm, h.2.1.symm, rest, h.2.2.symm⟩
  · rintro ⟨rfl, rfl, rest, rfl⟩
    exact ⟨rest, by simp [reference]⟩

/-- No reference begins at a character that is a piece of its own. -/
theorem pieces_leftmost {cs name : List Char} {before after : List Piece} {c : Char}
    (h : pieces cs = before ++ .char c :: after) (hne : name ≠ []) (hname : '}' ∉ name) :
    ¬ reference name <+: c :: after.flatMap Piece.text := by
  fun_induction pieces cs generalizing before with
  | case1 => simp at h
  | case2 d =>
    rcases before with _ | ⟨p, before⟩
    · simp only [List.nil_append, List.cons.injEq, Piece.char.injEq] at h
      rw [← h.2]
      rintro ⟨rest, heq⟩
      simp [reference] at heq
    · simp at h
  | case3 a b cs hstart d name' rest htake ih =>
    rcases before with _ | ⟨p, before⟩
    · simp at h
    · exact ih (List.cons.inj h).2
  | case4 a b cs hstart hnone ih =>
    rcases before with _ | ⟨p, before⟩
    · obtain ⟨-, hafter⟩ := List.cons.inj h
      rw [← hafter, flatMap_text_pieces, reference_prefix_iff hname]
      rintro ⟨-, -, rest, htake⟩
      rcases name with _ | ⟨d, name⟩
      · exact hne rfl
      · exact hnone d name rest htake
    · exact ih (List.cons.inj h).2
  | case5 a b cs hstart ih =>
    rcases before with _ | ⟨p, before⟩
    · obtain ⟨hfirst, hafter⟩ := List.cons.inj h
      rw [Piece.char.injEq] at hfirst
      rw [← hafter, ← hfirst, flatMap_text_pieces, reference_prefix_iff hname]
      rintro ⟨ha, hb, -⟩
      exact hstart ⟨ha, hb⟩
    · exact ih (List.cons.inj h).2

/-! ## Where references stand -/

/-- No reference begins inside of a name. -/
def IsClean (name : List Char) : Prop :=
  '}' ∉ name ∧ ¬ ['$', '{'] <:+: name

/-- Behind its first character, a reference with a clean name has no place where another one begins. -/
theorem exists_ne_of_suffix {name u : List Char} (h : IsClean name) (hu : '$' :: u <:+ '{' :: (name ++ ['}'])) :
    ∃ d v, u = d :: v ∧ d ≠ '{' := by
  obtain ⟨w, hw⟩ := hu
  rcases u with _ | ⟨d, v⟩
  · have hends : w ++ ['$'] = ('{' :: name) ++ ['}'] := hw
    have hlast : ['$'] = ['}'] := List.append_inj_right' hends rfl
    simp at hlast
  refine ⟨d, v, rfl, ?_⟩
  rintro rfl
  rcases List.eq_nil_or_concat v with rfl | ⟨v, x, rfl⟩
  · have hends : (w ++ ['$']) ++ ['{'] = ('{' :: name) ++ ['}'] := by simpa using hw
    have hlast : ['{'] = ['}'] := List.append_inj_right' hends rfl
    simp at hlast
  · have hends : (w ++ '$' :: '{' :: v) ++ [x] = ('{' :: name) ++ ['}'] := by simpa using hw
    have hfront : w ++ '$' :: '{' :: v = '{' :: name := List.append_inj_left' hends rfl
    rcases w with _ | ⟨y, w⟩
    · simp at hfront
    · have hname : w ++ '$' :: '{' :: v = name := (List.cons.inj hfront).2
      exact h.2 ⟨w, v, by rw [← hname]; simp⟩

section Pending

variable {env : Environment} {done : List (List Char)} {name : List Char} {ps : List Piece}

/-- The rest of a reference that begins outside of the pending references lies outside of them. -/
theorem prefix_flatMap_value (h : IsClean name) {q : List Char} (hq : q <:+ '{' :: (name ++ ['}']))
    (hbegins : q <+: ps.flatMap (Piece.rendered env done)) : q <+: ps.flatMap (Piece.value env) := by
  induction ps generalizing q with
  | nil => exact hbegins
  | cons p ps ih =>
    rw [List.flatMap_cons] at hbegins ⊢
    rcases q with _ | ⟨c, q⟩
    · exact List.nil_prefix
    have hrest : q <:+ '{' :: (name ++ ['}']) := (List.suffix_cons c q).trans hq
    -- characters that stand in both texts are passed over
    have hsame (v : List Char) (hv : c :: q <+: v ++ ps.flatMap (Piece.rendered env done)) :
        c :: q <+: v ++ ps.flatMap (Piece.value env) := by
      obtain ⟨w, hw⟩ := hv
      rcases List.append_eq_append_iff.1 hw with ⟨t, rfl, -⟩ | ⟨t, hsplit, htail⟩
      · rw [List.append_assoc]
        exact List.prefix_append _ _
      · rw [hsplit] at hq ⊢
        have ht : t <+: ps.flatMap (Piece.value env) :=
          ih ((List.suffix_append v t).trans hq) (htail ▸ List.prefix_append t w)
        exact (List.prefix_append_right_inj v).2 ht
    cases p with
    | char d => exact hsame [d] hbegins
    | reference m =>
      rw [Piece.rendered] at hbegins
      split at hbegins
      · exact hsame (valueOf env m) hbegins
      · rw [reference_eq, List.cons_append, List.cons_append, List.cons_prefix_cons] at hbegins
        obtain ⟨rfl, hbegins⟩ := hbegins
        obtain ⟨d, v, rfl, hd⟩ := exists_ne_of_suffix h hq
        rw [List.cons_prefix_cons] at hbegins
        exact absurd hbegins.1 hd

/-- A reference that begins outside of the pending references comes up in the text without them. -/
theorem reference_prefix_value (h : IsClean name) {c : Char} {u : List Char}
    (hbegins : reference name <+: c :: u ++ ps.flatMap (Piece.rendered env done)) :
    reference name <+: c :: u ++ ps.flatMap (Piece.value env) := by
  have hchars (f : Piece → List Char) (hf : ∀ c, f (.char c) = [c]) :
      (u.map Piece.char).flatMap f = u := by
    rw [List.flatMap_map]
    simp [hf]
  rw [reference_eq, List.cons_append, List.cons_prefix_cons] at hbegins ⊢
  refine ⟨hbegins.1, ?_⟩
  have hrest : '{' :: (name ++ ['}']) <+: (u.map Piece.char ++ ps).flatMap (Piece.rendered env done) := by
    rw [List.flatMap_append, hchars _ fun _ => rfl]
    exact hbegins.2
  have htail := prefix_flatMap_value h List.suffix_rfl hrest
  rwa [List.flatMap_append, hchars _ fun _ => rfl] at htail

/-- No reference to another variable begins in a reference. -/
theorem not_prefix_of_suffix_reference (h : IsClean name) {m : List Char} (hm : IsClean m) (hne : m ≠ name)
    {c : Char} {u rest : List Char} (hu : c :: u <:+ reference m) :
    ¬ reference name <+: c :: u ++ rest := by
  rintro ⟨w, hw⟩
  rcases List.suffix_cons_iff.1 hu with hwhole | hinner
  · rw [hwhole] at hw
    have htake : takeName (name ++ '}' :: w) = takeName (m ++ '}' :: rest) := by
      have heq : name ++ '}' :: w = m ++ '}' :: rest := by simpa [reference] using hw
      rw [heq]
    rw [takeName_eq_some_iff.2 ⟨rfl, h.1⟩, takeName_eq_some_iff.2 ⟨rfl, hm.1⟩] at htake
    simp only [Option.some.injEq, Prod.mk.injEq] at htake
    exact hne htake.1.symm
  · rw [reference_eq, List.cons_append, List.cons_append, List.cons_append, List.cons.injEq] at hw
    obtain ⟨rfl, hw⟩ := hw
    obtain ⟨d, v, rfl, hd⟩ := exists_ne_of_suffix hm hinner
    rw [List.cons_append, List.cons.injEq] at hw
    exact hd hw.1.symm

/-! ## One name after the other -/

/-- Replacing a name in a text replaces the pieces that refer to it, and leaves all others. -/
theorem replaceAll_rendered (h : IsClean name) (hps : ∀ m, .reference m ∈ ps → IsClean m)
    (habsent : ¬ reference name <:+: ps.flatMap (Piece.value env)) :
    replaceAll (reference name) (valueOf env name) (ps.flatMap (Piece.rendered env done)) =
      ps.flatMap (Piece.rendered env (name :: done)) := by
  induction ps with
  | nil => exact Text.replaceAll_nil _ _
  | cons p ps ih =>
    rw [List.flatMap_cons] at habsent
    have hrest := ih (fun m hm => hps m (List.mem_cons_of_mem p hm))
      fun hin => habsent (hin.trans (List.suffix_append _ _).isInfix)
    -- characters in which no reference begins are kept
    have hkept (v : List Char) (hv : p.value env = v) :
        replaceAll (reference name) (valueOf env name) (v ++ ps.flatMap (Piece.rendered env done)) =
          v ++ ps.flatMap (Piece.rendered env (name :: done)) := by
      rw [replaceAll_append_of_absent, hrest]
      intro c u hu hbegins
      have hvalue := reference_prefix_value h hbegins
      rw [hv] at habsent
      refine habsent (hvalue.isInfix.trans ?_)
      obtain ⟨w, rfl⟩ := hu
      exact ⟨w, [], by simp⟩
    rw [List.flatMap_cons, List.flatMap_cons]
    cases p with
    | char c => exact hkept [c] rfl
    | reference m =>
      simp only [Piece.rendered, List.mem_cons]
      by_cases hdone : m ∈ done
      · rw [if_pos hdone, if_pos (.inr hdone)]
        exact hkept (valueOf env m) rfl
      by_cases hm : m = name
      · rw [if_neg hdone, if_pos (.inl hm), hm, replaceAll_start (by simp [reference]), hrest]
      · rw [if_neg hdone, if_neg (by simp [hm, hdone]), replaceAll_append_of_absent, hrest]
        intro c u hu
        exact not_prefix_of_suffix_reference h (hps m List.mem_cons_self) hm hu

/-- Replacing names one after the other replaces the pieces that refer to them. -/
theorem foldl_replaceAll_rendered (names : List (List Char)) (hnames : ∀ name ∈ names, IsClean name)
    (hps : ∀ m, .reference m ∈ ps → IsClean m)
    (habsent : ∀ name ∈ names, ¬ reference name <:+: ps.flatMap (Piece.value env)) :
    names.foldl (fun cs name => replaceAll (reference name) (valueOf env name) cs)
      (ps.flatMap (Piece.rendered env done)) = ps.flatMap (Piece.rendered env (names.reverse ++ done)) := by
  induction names generalizing done with
  | nil => rfl
  | cons name names ih =>
    rw [List.foldl_cons, replaceAll_rendered (hnames name List.mem_cons_self) hps (habsent name List.mem_cons_self),
      ih (fun m hm => hnames m (List.mem_cons_of_mem _ hm)) fun m hm => habsent m (List.mem_cons_of_mem _ hm)]
    simp

end Pending

/-- No reference of a text stands inside of the name of another, and none comes up in the text with all
references replaced. -/
structure Apart (env : Environment) (s : String) : Prop where
  names : ∀ name ∈ namesIn s.toList, ¬ ['$', '{'] <:+: name
  values : ∀ name ∈ namesIn s.toList, ¬ reference name <:+: (substitutedAtOnce env s).toList

/-- The references of a text that are apart are replaced at once. -/
theorem replaced_of_apart {env : Environment} {s : String} (h : Apart env s) :
    replaced env s = substitutedAtOnce env s := by
  have hmem {name : List Char} : name ∈ namesIn s.toList ↔ .reference name ∈ pieces s.toList := mem_namesIn_iff
  have hclean : ∀ name ∈ namesIn s.toList, IsClean name := fun name hname =>
    ⟨(name_of_mem_pieces (hmem.1 hname)).2, h.names name hname⟩
  have hvalues := h.values
  rw [substitutedAtOnce, String.toList_ofList] at hvalues
  have hstart : s.toList = (pieces s.toList).flatMap (Piece.rendered env []) := by
    conv => lhs; rw [← flatMap_text_pieces s.toList]
    rw [show Piece.text = Piece.rendered env [] from funext fun p => by cases p <;> rfl]
  have hrun : (namesIn s.toList).foldl (fun cs name => replaceAll (reference name) (valueOf env name) cs)
      ((pieces s.toList).flatMap (Piece.rendered env [])) =
      (pieces s.toList).flatMap (Piece.rendered env ((namesIn s.toList).reverse ++ [])) :=
    foldl_replaceAll_rendered (namesIn s.toList) hclean (fun m hm => hclean m (hmem.2 hm)) hvalues
  rw [← hstart, List.append_nil] at hrun
  rw [replaced, substitutedAtOnce]
  refine congrArg String.ofList (hrun.trans ?_)
  rw [List.flatMap_def, List.flatMap_def]
  refine congrArg List.flatten (List.map_congr_left fun p hp => ?_)
  cases p with
  | char c => rfl
  | reference m =>
    rw [Piece.rendered, if_pos (List.mem_reverse.2 (hmem.2 hp)), Piece.value]

/-! ## Values in which no reference begins -/

section Plain

variable {env : Environment}

/-- A dollar sign and a brace that follow each other in a text with all references replaced did so before. -/
theorem exists_pieces_of_start {ps : List Piece}
    (hvalues : ∀ m, .reference m ∈ ps → ∃ c v, valueOf env m = c :: v ∧ '$' ∉ c :: v ∧ c ≠ '{') {u t : List Char}
    (h : u ++ '$' :: '{' :: t = ps.flatMap (Piece.value env)) :
    ∃ before after, ps = before ++ .char '$' :: .char '{' :: after ∧ t = after.flatMap (Piece.value env) := by
  induction ps generalizing u with
  | nil => simp at h
  | cons p ps ih =>
    have hlater := fun m hm => hvalues m (List.mem_cons_of_mem p hm)
    -- the two characters stand behind the first piece
    have hbehind (u' : List Char) (h' : u' ++ '$' :: '{' :: t = ps.flatMap (Piece.value env)) :
        ∃ before after, p :: ps = before ++ .char '$' :: .char '{' :: after ∧
          t = after.flatMap (Piece.value env) := by
      obtain ⟨before, after, hps, ht⟩ := ih hlater h'
      exact ⟨p :: before, after, by rw [hps, List.cons_append], ht⟩
    rw [List.flatMap_cons] at h
    cases p with
    | reference m =>
      obtain ⟨c, v, hv, hdollar, -⟩ := hvalues m List.mem_cons_self
      rw [Piece.value, hv] at h
      rcases List.append_eq_append_iff.1 h with ⟨w, hw, hrest⟩ | ⟨w, -, hrest⟩
      · rcases w with _ | ⟨d, w⟩
        · exact hbehind [] hrest
        · obtain ⟨rfl, -⟩ := List.cons.inj hrest
          exact absurd (hw ▸ by simp) hdollar
      · exact hbehind w hrest.symm
    | char c =>
      rcases u with _ | ⟨d, u⟩
      · obtain ⟨rfl, hrest⟩ := List.cons.inj h
        rcases ps with _ | ⟨q, ps⟩
        · simp at hrest
        rw [List.flatMap_cons] at hrest
        cases q with
        | char d =>
          obtain ⟨rfl, ht⟩ := List.cons.inj hrest
          exact ⟨[], ps, rfl, ht⟩
        | reference m =>
          obtain ⟨d, v, hv, -, hbrace⟩ := hlater m List.mem_cons_self
          rw [Piece.value, hv] at hrest
          exact absurd (List.cons.inj hrest).1.symm hbrace
      · exact hbehind u (List.cons.inj h).2

theorem mem_text_of_mem_value {ps : List Piece} (h : '}' ∈ ps.flatMap (Piece.value env)) :
    '}' ∈ ps.flatMap Piece.text := by
  obtain ⟨p, hp, hin⟩ := List.mem_flatMap.1 h
  refine List.mem_flatMap.2 ⟨p, hp, ?_⟩
  cases p with
  | char c => exact hin
  | reference m => simp [Piece.text, reference]

/-- References are apart if their names are clean, and their values are not empty, have no dollar sign and do
not begin with a brace. -/
theorem apart_of_plain_values {s : String} (hnames : ∀ name ∈ namesIn s.toList, ¬ ['$', '{'] <:+: name)
    (hvalues : ∀ name ∈ namesIn s.toList, ∃ c v, valueOf env name = c :: v ∧ '$' ∉ c :: v ∧ c ≠ '{') :
    Apart env s := by
  refine ⟨hnames, ?_⟩
  rintro name hname ⟨u, w, h⟩
  have hmem {m : List Char} : m ∈ namesIn s.toList ↔ .reference m ∈ pieces s.toList := mem_namesIn_iff
  obtain ⟨hne, hbrace⟩ := name_of_mem_pieces (hmem.1 hname)
  rw [substitutedAtOnce, String.toList_ofList, reference_eq] at h
  obtain ⟨before, after, hps, htail⟩ := exists_pieces_of_start (t := name ++ '}' :: w)
    (fun m hm => hvalues m (hmem.2 hm)) (by simpa using h)
  -- a brace that closes the reference closes one of the text as well
  have hvalue : '}' ∈ after.flatMap (Piece.value env) := htail ▸ by simp
  have hclosed := mem_text_of_mem_value hvalue
  obtain ⟨m, rest, hsplit, hm⟩ := List.eq_append_cons_of_mem hclosed
  have hempty : m ≠ [] := by
    rintro rfl
    rcases after with _ | ⟨p, after⟩
    · simp at hsplit
    cases p with
    | char c =>
      obtain rfl : c = '}' := (List.cons.inj hsplit).1
      rcases name with _ | ⟨d, name⟩
      · exact hne rfl
      · exact hbrace ((List.cons.inj htail).1 ▸ List.mem_cons_self)
    | reference m => simp [Piece.text, reference] at hsplit
  refine pieces_leftmost hps hempty hm ⟨rest, ?_⟩
  rw [List.flatMap_cons, hsplit, reference_eq]
  simp [Piece.text]

end Plain

/-! ## Values of configurations -/

/-- Something fails with a fault if there is one, and comes to a result otherwise. -/
def FailsWith {α : Type} (fault? : Option Text.EncodeError) (x : Except Text.EncodeError α) : Prop :=
  match fault? with
  | none => ∃ a, x = .ok a
  | some e => x = .error e

namespace FailsWith

variable {α β : Type} {fault? fault'? : Option Text.EncodeError} {x : Except Text.EncodeError α}

theorem map (h : FailsWith fault? x) (f : α → β) : FailsWith fault? (x.map f) := by
  cases fault? with
  | none =>
    obtain ⟨a, rfl⟩ := h
    exact ⟨f a, rfl⟩
  | some e => exact congrArg (Except.map f) h

theorem bind {k : α → Except Text.EncodeError β} (h : FailsWith fault? x) (hk : ∀ a, FailsWith fault'? (k a)) :
    FailsWith (fault?.or fault'?) (x >>= k) := by
  cases fault? with
  | none =>
    obtain ⟨a, rfl⟩ := h
    exact hk a
  | some e =>
    obtain rfl : x = .error e := h
    rfl

theorem eq_error_iff (h : FailsWith fault? x) {e : Text.EncodeError} : x = .error e ↔ fault? = some e := by
  cases fault? with
  | none =>
    obtain ⟨a, rfl⟩ := h
    simp
  | some e' =>
    obtain rfl : x = .error e' := h
    simp

theorem exists_ok_iff (h : FailsWith fault? x) : (∃ a, x = .ok a) ↔ fault? = none := by
  cases fault? with
  | none => exact iff_of_true h rfl
  | some e =>
    obtain rfl : x = .error e := h
    simp

end FailsWith

theorem substituteText_failsWith (env : Environment) (s : String) :
    FailsWith ((namesOf s).findSome? Text.encodeError?) (substituteText env s) := by
  rw [substituteText]
  cases (namesOf s).findSome? Text.encodeError? with
  | none => exact ⟨_, rfl⟩
  | some e => exact rfl

mutual
/-- A substitution fails with the first name that cannot be written, if there is one. -/
theorem substitute_failsWith (env : Environment) :
    ∀ r, FailsWith ((variableNames r).findSome? Text.encodeError?) (substitute env r)
  | .text s => (substituteText_failsWith env s).map Raw.text
  | .code s => by
    rw [variableNames, substitute]
    split
    · rename_i hnone
      rw [List.isEmpty_iff] at hnone
      rw [namesOf, hnone]
      exact ⟨_, rfl⟩
    · exact (substituteText_failsWith env s).map Raw.text
  | .list items => (substituteItems_failsWith env items).map Raw.list
  | .map entries => (substituteEntries_failsWith env entries).map Raw.map
  | .null | .bool _ | .int _ | .long _ | .float _ | .decimal _ | .wideDecimal _ | .identifier _ | .bytes _ _
  | .moment _ | .date _ | .uuid _ | .tuple _ | .set _ | .foreign _ | .built _ _ => ⟨_, rfl⟩
theorem substituteItems_failsWith (env : Environment) :
    ∀ items, FailsWith ((variableNamesOfItems items).findSome? Text.encodeError?) (substituteItems env items)
  | [] => ⟨_, rfl⟩
  | item :: items => by
    rw [variableNamesOfItems, List.findSome?_append, substituteItems]
    refine (substitute_failsWith env item).bind fun item' => ?_
    exact (substituteItems_failsWith env items).map (item' :: ·)
theorem substituteEntries_failsWith (env : Environment) :
    ∀ entries, FailsWith ((variableNamesOfEntries entries).findSome? Text.encodeError?) (substituteEntries env entries)
  | [] => ⟨_, rfl⟩
  | (key, value) :: entries => by
    rw [variableNamesOfEntries, List.findSome?_append, substituteEntries]
    refine (substitute_failsWith env value).bind fun value' => ?_
    exact (substituteEntries_failsWith env entries).map ((key, value') :: ·)
end

/-- A value is another one with its texts changed, those in lists and under the keys of mappings at any depth,
and with nothing else changed. -/
inductive Substituted (f : String → Except Text.EncodeError String) : Raw → Raw → Prop
  | text {s t : String} (changed : f s = .ok t) : Substituted f (.text s) (.text t)
  | code {s t : String} {r : Raw} (changed : f s = .ok t) (text : r.text? = some t) : Substituted f (.code s) r
  | list {items items' : List Raw} (length : items'.length = items.length)
      (each : ∀ (i : Nat) (item item' : Raw), items[i]? = some item → items'[i]? = some item' →
        Substituted f item item') :
      Substituted f (.list items) (.list items')
  | map {entries entries' : List (Raw × Raw)} (keys : entries'.map Prod.fst = entries.map Prod.fst)
      (each : ∀ (i : Nat) (e e' : Raw × Raw), entries[i]? = some e → entries'[i]? = some e' →
        Substituted f e.2 e'.2) :
      Substituted f (.map entries) (.map entries')
  | other {r : Raw} (text : r.text? = none) (list : ∀ items, r ≠ .list items) (map : ∀ entries, r ≠ .map entries) :
      Substituted f r r

mutual
theorem substituted (env : Environment) :
    ∀ r r', substitute env r = .ok r' → Substituted (substituteText env) r r'
  | .text s, r', h => by
    obtain ⟨t, ht, rfl⟩ := exists_of_map_ok h
    exact .text ht
  | .code s, r', h => by
    rw [substitute] at h
    split at h
    · rename_i hnone
      rw [List.isEmpty_iff] at hnone
      obtain rfl := Except.ok.inj h
      exact .code (substituteText_plain env hnone) rfl
    · obtain ⟨t, ht, rfl⟩ := exists_of_map_ok h
      exact .code ht rfl
  | .list items, r', h => by
    obtain ⟨items', hitems, rfl⟩ := exists_of_map_ok h
    exact .list (substitutedItems env items items' hitems).1 (substitutedItems env items items' hitems).2
  | .map entries, r', h => by
    obtain ⟨entries', hentries, rfl⟩ := exists_of_map_ok h
    exact .map (substitutedEntries env entries entries' hentries).1
      (substitutedEntries env entries entries' hentries).2
  | .null, r', h | .bool _, r', h | .int _, r', h | .long _, r', h | .float _, r', h | .decimal _, r', h
  | .wideDecimal _, r', h | .identifier _, r', h | .bytes _ _, r', h | .moment _, r', h | .date _, r', h
  | .uuid _, r', h | .tuple _, r', h | .set _, r', h | .foreign _, r', h | .built _ _, r', h => by
    obtain rfl := Except.ok.inj h
    exact .other rfl (fun _ h => by cases h) fun _ h => by cases h
theorem substitutedItems (env : Environment) : ∀ items items' : List Raw, substituteItems env items = .ok items' →
    items'.length = items.length ∧ ∀ (i : Nat) (item item' : Raw), items[i]? = some item →
      items'[i]? = some item' → Substituted (substituteText env) item item'
  | [], items', h => by
    obtain rfl := Except.ok.inj h
    exact ⟨rfl, fun i item item' h => by simp at h⟩
  | first :: items, items', h => by
    obtain ⟨first', hfirst, h⟩ := exists_of_bind_ok h
    obtain ⟨rest, hrest, h⟩ := exists_of_bind_ok h
    obtain rfl := Except.ok.inj h
    have hitems := substitutedItems env items rest hrest
    refine ⟨by simp [hitems.1], fun i item item' h h' => ?_⟩
    rcases i with _ | i
    · obtain rfl : first = item := by simpa using h
      obtain rfl : first' = item' := by simpa using h'
      exact substituted env first first' hfirst
    · exact hitems.2 i item item' (by simpa using h) (by simpa using h')
theorem substitutedEntries (env : Environment) :
    ∀ entries entries' : List (Raw × Raw), substituteEntries env entries = .ok entries' →
      entries'.map Prod.fst = entries.map Prod.fst ∧ ∀ (i : Nat) (e e' : Raw × Raw), entries[i]? = some e →
        entries'[i]? = some e' → Substituted (substituteText env) e.2 e'.2
  | [], entries', h => by
    obtain rfl := Except.ok.inj h
    exact ⟨rfl, fun i e e' h => by simp at h⟩
  | (key, value) :: entries, entries', h => by
    obtain ⟨value', hvalue, h⟩ := exists_of_bind_ok h
    obtain ⟨rest, hrest, h⟩ := exists_of_bind_ok h
    obtain rfl := Except.ok.inj h
    have hentries := substitutedEntries env entries rest hrest
    refine ⟨by simp [hentries.1], fun i e e' h h' => ?_⟩
    rcases i with _ | i
    · obtain rfl : (key, value) = e := by simpa using h
      obtain rfl : (key, value') = e' := by simpa using h'
      exact substituted env value value' hvalue
    · exact hentries.2 i e e' (by simpa using h) (by simpa using h')
end

theorem findSome?_encodeError?_eq_none_iff {names : List String} :
    names.findSome? Text.encodeError? = none ↔ ∀ name ∈ names, Text.IsEncodable name := by
  simp only [List.findSome?_eq_none_iff, Text.encodeError?_eq_none_iff]

theorem substituteText_of_apart {env : Environment} {s : String} (h : Apart env s)
    (hnames : ∀ name ∈ namesOf s, Text.IsEncodable name) :
    substituteText env s = .ok (substitutedAtOnce env s) := by
  rw [substituteText, findSome?_encodeError?_eq_none_iff.2 hnames, ← replaced_of_apart h]

/-- **Substitution.** A substitution comes to a result if the names of all variables can be written for the system, and
fails with the first that cannot otherwise. The texts of the result are changed, those in lists and under the keys of
mappings at any depth, and nothing else is. A text whose references are apart has all of them replaced at once, and
the references are apart if the names have no start of a reference in them, and the values are not empty, have no
dollar sign and do not begin with a brace. -/
theorem substitute_single_pass (env : Environment) :
    (∀ r, (∃ r', substitute env r = .ok r') ↔ ∀ name ∈ variableNames r, Text.IsEncodable name) ∧
    (∀ r e, substitute env r = .error e ↔ (variableNames r).findSome? Text.encodeError? = some e) ∧
    (∀ r r', substitute env r = .ok r' → Substituted (substituteText env) r r') ∧
    (∀ s, Apart env s → (∀ name ∈ namesOf s, Text.IsEncodable name) →
      substituteText env s = .ok (substitutedAtOnce env s)) ∧
    ∀ s, (∀ name ∈ namesIn s.toList, ¬ ['$', '{'] <:+: name ∧
      ∃ c v, valueOf env name = c :: v ∧ '$' ∉ c :: v ∧ c ≠ '{') → Apart env s := by
  refine ⟨fun r => ?_, fun r e => (substitute_failsWith env r).eq_error_iff, substituted env,
    fun _ => substituteText_of_apart, fun _ h => ?_⟩
  · rw [(substitute_failsWith env r).exists_ok_iff, findSome?_encodeError?_eq_none_iff]
  · exact apart_of_plain_values (fun name hname => (h name hname).1) fun name hname => (h name hname).2

/-- A value that looks like the reference to a variable of no text is left as it is. -/
theorem substitute_single_pass_nested :
    let env : Environment := fun name => if name = "A" then some "$\x7bC\x7d" else none
    Apart env "$\x7bA\x7d-$\x7bB\x7d" ∧ (∀ name ∈ namesOf "$\x7bA\x7d-$\x7bB\x7d", Text.IsEncodable name) ∧
      substituteText env "$\x7bA\x7d-$\x7bB\x7d" = .ok "$\x7bC\x7d-" := by
  intro env
  have hapart : Apart env "$\x7bA\x7d-$\x7bB\x7d" := ⟨by decide +kernel, by decide +kernel⟩
  have hnone : (namesOf "$\x7bA\x7d-$\x7bB\x7d").findSome? Text.encodeError? = none := by decide +kernel
  have hnames := findSome?_encodeError?_eq_none_iff.1 hnone
  refine ⟨hapart, hnames, ?_⟩
  rw [(substitute_single_pass env).2.2.2.1 _ hapart hnames]
  have hvalue : substitutedAtOnce env "$\x7bA\x7d-$\x7bB\x7d" = "$\x7bC\x7d-" := by decide +kernel
  rw [hvalue]

/-- A value is gone through again if it refers to a variable whose name comes later in the text, and not if the
name came before. A variable whose name is half of a surrogate pair cannot be looked up, though it is not set. -/
theorem substituteText_ne_atOnce :
    let env : Environment := fun name =>
      if name = "A" then some "$\x7bB\x7d" else if name = "B" then some "x" else none
    let half := String.ofList (reference [Text.charOf 0xd800])
    (substituteText env "$\x7bA\x7d$\x7bB\x7d").toOption = some "xx" ∧
      substitutedAtOnce env "$\x7bA\x7d$\x7bB\x7d" = "$\x7bB\x7dx" ∧
      (substituteText env "$\x7bB\x7d$\x7bA\x7d").toOption = some "x$\x7bB\x7d" ∧
      (substituteText env half).toOption = none ∧ substitutedAtOnce env half = "" := by
  decide +kernel

end DocSchema.Config
