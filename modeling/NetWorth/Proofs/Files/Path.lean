import Mathlib
import NetWorth.Files.Path

/-!
# The name at the end of a path

A path that ends in a name has the parts of its directory, and then that name.
With another extension it has the same directory and another name, whatever
slashes follow the name and wherever there are dots in it.
-/

namespace NetWorth.Path

/-- The parts of a path as characters. -/
def partsOf
    (path : List Char) :
    List (List Char) :=
  (splitSlashes path).filter fun part => part ≠ [] ∧ part ≠ ['.']

/-- The end of a path names something: it is not missing, and no dots alone. -/
def IsName
    (name : List Char) :
    Prop :=
  ¬ (name = [] ∨ name = ['.'] ∨ name = ['.', '.'])

instance (name : List Char) : Decidable (IsName name) :=
  inferInstanceAs (Decidable (¬ _))

/-- A path ends in a name. -/
def HasName
    (path : String) :
    Prop :=
  IsName (splitName path.toList).2

instance (path : String) : Decidable (HasName path) :=
  inferInstanceAs (Decidable (IsName _))

theorem parts_eq
    (path : String) :
    parts path = (partsOf path.toList).map String.ofList :=
  rfl

/-! ## Slashes -/

private theorem splitSlashes_ne_nil
    (path : List Char) :
    splitSlashes path ≠ [] := by
  cases path with
  | nil => exact List.cons_ne_nil _ _
  | cons c rest =>
      unfold splitSlashes
      split
      · exact List.cons_ne_nil _ _
      · split <;> exact List.cons_ne_nil _ _

/-- A slash separates the parts before it from those after it. -/
private theorem splitSlashes_slash
    (before after : List Char) :
    splitSlashes (before ++ '/' :: after) =
      splitSlashes before ++ splitSlashes after := by
  induction before with
  | nil => simp [splitSlashes]
  | cons c rest inductionHypothesis =>
      by_cases isSlash : c = '/'
      · simp [splitSlashes, isSlash, inductionHypothesis]
      · simp only [List.cons_append, splitSlashes, if_neg isSlash,
          inductionHypothesis]
        cases split : splitSlashes rest with
        | nil => exact absurd split (splitSlashes_ne_nil rest)
        | cons part parts => rfl

private theorem splitSlashes_name
    {name : List Char}
    (noSlash : '/' ∉ name) :
    splitSlashes name = [name] := by
  induction name with
  | nil => rfl
  | cons c rest inductionHypothesis =>
      rw [List.mem_cons, not_or] at noSlash
      simp only [splitSlashes, if_neg (Ne.symm noSlash.1),
        inductionHypothesis noSlash.2]

private theorem partsOf_slash
    (before after : List Char) :
    partsOf (before ++ '/' :: after) = partsOf before ++ partsOf after := by
  rw [partsOf, splitSlashes_slash, List.filter_append]
  rfl

/-- What is taken off the end of a path is no part of it. -/
private theorem partsOf_dropEnd
    (reversed : List Char) :
    partsOf (dropEnd reversed).reverse = partsOf reversed.reverse := by
  fun_induction dropEnd reversed with
  | case1 c rest inductionHypothesis =>
      rw [inductionHypothesis, List.reverse_cons (a := '/'), partsOf_slash]
      exact (List.append_nil _).symm
  | case2 rest inductionHypothesis =>
      have oneDot :
          ('.' :: '/' :: rest).reverse = rest.reverse ++ '/' :: ['.'] := by
        simp
      rw [inductionHypothesis, oneDot, partsOf_slash, List.reverse_cons,
        partsOf_slash]
      rfl
  | case3 => rfl

/-! ## The directory and the name -/

/-- The reversed text of a directory in front of a name: none, or one that ends
in a slash. -/
inductive IsFront :
    List Char → Prop where
  | none : IsFront []
  | directory (before : List Char) : IsFront ('/' :: before)

/-- A path, without the slashes after its name, is a directory and a name. -/
theorem splitName_spec
    (path : List Char) :
    dropEnd path.reverse =
        (splitName path).2.reverse ++ (splitName path).1 ∧
      '/' ∉ (splitName path).2 ∧
      IsFront (splitName path).1 := by
  let reversed := dropEnd path.reverse
  let name := reversed.takeWhile (· != '/')
  have frontEq : reversed.drop name.length = reversed.dropWhile (· != '/') := by
    conv_lhs => rw [← List.takeWhile_append_dropWhile (p := (· != '/'))
      (l := reversed)]
    exact List.drop_left
  change reversed = name.reverse.reverse ++ reversed.drop name.length ∧
    '/' ∉ name.reverse ∧ IsFront (reversed.drop name.length)
  rw [frontEq, List.reverse_reverse, List.mem_reverse]
  refine ⟨List.takeWhile_append_dropWhile.symm, fun isSlash => ?_, ?_⟩
  · have notSlash := List.mem_takeWhile_imp isSlash
    simp at notSlash
  · cases front : reversed.dropWhile (· != '/') with
    | nil => exact .none
    | cons c before =>
        have stopped := List.head?_dropWhile_not (· != '/') reversed
        rw [front] at stopped
        have isSlash : c = '/' := by simpa using stopped
        rw [isSlash]
        exact .directory before

/-- The directory and the name of a path are read off its text. -/
private theorem splitName_eq
    {path front name : List Char}
    (isPath : dropEnd path.reverse = name.reverse ++ front)
    (noSlash : '/' ∉ name)
    (isFront : IsFront front) :
    splitName path = (front, name) := by
  have nameTaken :
      (name.reverse ++ front).takeWhile (· != '/') = name.reverse := by
    rw [List.takeWhile_append_of_pos fun c isChar => ?_]
    · cases isFront <;> simp
    · rw [bne_iff_ne]
      rintro rfl
      exact noSlash (List.mem_reverse.mp isChar)
  rw [splitName, isPath, nameTaken]
  simp

/-- The parts of a directory, and then a name. -/
private theorem partsOf_front
    {front name : List Char}
    (isFront : IsFront front)
    (noSlash : '/' ∉ name)
    (nonempty : name ≠ [])
    (noDot : name ≠ ['.']) :
    partsOf (front.reverse ++ name) = partsOf front.reverse ++ [name] := by
  have alone : partsOf name = [name] := by
    simp [partsOf, splitSlashes_name noSlash, nonempty, noDot]
  cases isFront with
  | none => exact alone
  | directory before =>
      rw [List.reverse_cons, List.append_assoc, List.singleton_append,
        partsOf_slash, partsOf_slash, alone]
      simp [partsOf, splitSlashes]

/-- The parts of a path, if the last of them is not a dot. -/
private theorem partsOf_splitName
    {path : List Char}
    (nonempty : (splitName path).2 ≠ [])
    (noDot : (splitName path).2 ≠ ['.']) :
    partsOf path =
      partsOf (splitName path).1.reverse ++ [(splitName path).2] := by
  obtain ⟨isPath, noSlash, isFront⟩ := splitName_spec path
  rw [← partsOf_front isFront noSlash nonempty noDot]
  conv_lhs => rw [← List.reverse_reverse path, ← partsOf_dropEnd, isPath]
  simp

/-! ## The extension -/

/-- A name has no extension, or it is cut at its last dot. -/
private theorem splitExtension_cases
    (name : List Char) :
    splitExtension name = (name, []) ∨
      ∃ stem extension,
        splitExtension name = (stem, extension) ∧
          name = stem ++ '.' :: extension ∧
          stem ≠ [] ∧
          '.' ∉ extension := by
  let extension := name.reverse.takeWhile (· != '.')
  have restEq :
      name.reverse.drop extension.length =
        name.reverse.dropWhile (· != '.') := by
    conv_lhs => rw [← List.takeWhile_append_dropWhile (p := (· != '.'))
      (l := name.reverse)]
    exact List.drop_left
  unfold splitExtension
  simp only [show name.reverse.drop
    (name.reverse.takeWhile (· != '.')).length = _ from restEq]
  cases rest : name.reverse.dropWhile (· != '.') with
  | nil => exact .inl rfl
  | cons c before =>
      by_cases isHidden : before.isEmpty
      · exact .inl (if_pos isHidden)
      · have stopped := List.head?_dropWhile_not (· != '.') name.reverse
        rw [rest] at stopped
        have isDot : c = '.' := by simpa using stopped
        have cut := List.takeWhile_append_dropWhile (p := (· != '.'))
          (l := name.reverse)
        rw [rest, isDot] at cut
        refine .inr ⟨before.reverse, extension.reverse, if_neg isHidden, ?_,
          ?_, ?_⟩
        · rw [← List.reverse_reverse name, ← cut]
          simp [extension]
        · simpa using isHidden
        · intro isDot
          have notDot := List.mem_takeWhile_imp (List.mem_reverse.mp isDot)
          simp at notDot

/-- A name is cut at its last dot, if something is in front of it. -/
private theorem splitExtension_eq
    {stem extension : List Char}
    (nonempty : stem ≠ [])
    (noDot : '.' ∉ extension) :
    splitExtension (stem ++ '.' :: extension) = (stem, extension) := by
  have reversedEq :
      (stem ++ '.' :: extension).reverse =
        extension.reverse ++ '.' :: stem.reverse := by
    simp
  have taken :
      (extension.reverse ++ '.' :: stem.reverse).takeWhile (· != '.') =
        extension.reverse := by
    rw [List.takeWhile_append_of_pos fun c isChar => ?_]
    · simp
    · rw [bne_iff_ne]
      rintro rfl
      exact noDot (List.mem_reverse.mp isChar)
  unfold splitExtension
  simp [reversedEq, taken, nonempty]

/-- Of a path from which the extension has been cut off, what is taken off the
end is still taken off. -/
private theorem dropEnd_drop
    {reversed : List Char}
    {count : Nat}
    (few : count + (dropEnd reversed).length ≤ reversed.length) :
    dropEnd (reversed.drop count) = dropEnd reversed := by
  fun_induction dropEnd reversed generalizing count with
  | case1 c rest inductionHypothesis =>
      cases count with
      | zero => rw [List.drop_zero, dropEnd]
      | succ count =>
          exact inductionHypothesis (by simp only [List.length_cons] at *; omega)
  | case2 rest inductionHypothesis =>
      cases count with
      | zero => rw [List.drop_zero, dropEnd]
      | succ count =>
          exact inductionHypothesis (by simp only [List.length_cons] at *; omega)
  | case3 reversed noSlash noDot =>
      have none : count = 0 := by omega
      rw [none, List.drop_zero, dropEnd.eq_3 _ noSlash noDot]

/-- Nothing is taken off a name of two characters or more. -/
private theorem dropEnd_name
    {name front : List Char}
    (twoChars : 2 ≤ name.length)
    (noSlash : '/' ∉ name) :
    dropEnd (name ++ front) = name ++ front := by
  obtain ⟨first, second, rest, rfl⟩ :
      ∃ first second rest, name = first :: second :: rest := by
    match name, twoChars with
    | first :: second :: rest, _ => exact ⟨first, second, rest, rfl⟩
  simp only [List.mem_cons, not_or] at noSlash
  refine dropEnd.eq_3 _ (fun c others same => ?_) fun others same => ?_
  · cases same
    exact noSlash.1 rfl
  · cases same
    exact noSlash.2.1 rfl

/-- What is taken off the end of a path stands at its end. -/
private theorem dropEnd_suffix
    (reversed : List Char) :
    dropEnd reversed <:+ reversed := by
  fun_induction dropEnd reversed with
  | case1 c rest inductionHypothesis =>
      exact inductionHypothesis.trans (List.suffix_cons _ _)
  | case2 rest inductionHypothesis =>
      exact inductionHypothesis.trans (List.suffix_cons _ _)
  | case3 => exact List.suffix_rfl


/-! ## Another extension -/

private theorem length_splitExtension_le
    (name : List Char) :
    (splitExtension name).2.length ≤ name.length := by
  rcases splitExtension_cases name with none | ⟨stem, extension, cut, eq, -⟩
  · simp [none]
  · rw [cut, eq]
    simp only [List.length_append, List.length_cons]
    omega

/-- Cutting off fewer characters than a name has after its last dot shortens
its extension. -/
private theorem drop_name
    {junk stem extension front : List Char}
    (few : junk.length ≤ extension.length) :
    (junk ++ ((stem ++ '.' :: extension).reverse ++ front)).drop
        extension.length =
      (stem ++ '.' :: extension.take junk.length).reverse ++ front := by
  rw [List.drop_append, List.drop_eq_nil_of_le few, List.nil_append]
  simp only [List.reverse_append, List.reverse_cons, List.append_assoc]
  rw [List.drop_append_of_le_length (by simp), List.reverse_take]

/-- Without its extension a path still has its directory, and a name with the
same stem. -/
private theorem splitName_dropExtension
    {path : List Char}
    (isName : IsName (splitName path).2) :
    ∃ cutName,
      splitName (dropExtension path) = ((splitName path).1, cutName) ∧
        (splitExtension cutName).1 = (splitExtension (splitName path).2).1 ∧
        cutName ≠ [] ∧ cutName ≠ ['.'] := by
  obtain ⟨isPath, noSlash, isFront⟩ := splitName_spec path
  obtain ⟨junk, path_eq⟩ := dropEnd_suffix path.reverse
  rw [isPath] at path_eq
  have lengths := congrArg List.length path_eq
  simp only [List.length_append, List.length_reverse] at lengths
  have fits := length_splitExtension_le (splitName path).2
  have bare_eq :
      (dropExtension path).reverse =
        path.reverse.drop (splitExtension (splitName path).2).2.length := by
    rw [dropExtension, List.reverse_take, Nat.sub_sub_self (by omega)]
  by_cases few :
      (splitExtension (splitName path).2).2.length ≤ junk.length
  · -- Only what follows the name is cut off.
    refine ⟨(splitName path).2, splitName_eq ?_ noSlash isFront, rfl,
      fun empty => isName (.inl empty), fun dot => isName (.inr (.inl dot))⟩
    rw [bare_eq, dropEnd_drop, isPath]
    rw [isPath]
    simp only [List.length_append, List.length_reverse]
    omega
  · -- What follows the name is cut off, and the end of the extension.
    rcases splitExtension_cases (splitName path).2 with
      none | ⟨stem, extension, cut, name_eq, stemNonempty, noDots⟩
    · simp [none] at few
    · have stemLength := List.length_pos_of_ne_nil stemNonempty
      have cutNoSlash :
          '/' ∉ stem ++ '.' :: extension.take junk.length := fun isSlash => by
        refine noSlash (name_eq ▸ ?_)
        simp only [List.mem_append, List.mem_cons] at isSlash ⊢
        exact isSlash.imp_right (Or.imp_right List.mem_of_mem_take)
      rw [cut, ← path_eq, name_eq] at bare_eq
      rw [cut] at few
      refine ⟨stem ++ '.' :: extension.take junk.length,
        splitName_eq ?_ cutNoSlash isFront, ?_, by simp, fun isDot => ?_⟩
      · rw [bare_eq, drop_name (Nat.le_of_not_le few)]
        exact dropEnd_name (by simp; omega)
          (fun isSlash => cutNoSlash (List.mem_reverse.mp isSlash))
      · rw [splitExtension_eq stemNonempty fun isDot =>
          noDots (List.mem_of_mem_take isDot), cut]
      · have := congrArg List.length isDot
        simp at this
        omega

/-- A name whose extension has a dot in it is not the stem of any other name. -/
private theorem stem_ne
    {name extension : List Char}
    (hasDot : '.' ∈ extension) :
    (splitExtension name).1 ++ '.' :: extension ≠ name := by
  intro same
  rcases splitExtension_cases name with none | ⟨stem, cutOff, cut, eq, -, noDots⟩
  · rw [none] at same
    simp at same
  · rw [cut] at same
    have : '.' :: extension = '.' :: cutOff :=
      List.append_cancel_left (same.trans eq)
    rw [List.cons.injEq] at this
    exact noDots (this.2 ▸ hasDot)

/-- A stem is part of its name. -/
private theorem mem_of_mem_stem
    {name : List Char}
    {c : Char}
    (isIn : c ∈ (splitExtension name).1) :
    c ∈ name := by
  rcases splitExtension_cases name with none | ⟨stem, cutOff, cut, eq, -⟩
  · rwa [none] at isIn
  · rw [cut] at isIn
    rw [eq]
    exact List.mem_append_left _ isIn

private theorem stem_ne_nil
    {name : List Char}
    (nonempty : name ≠ []) :
    (splitExtension name).1 ≠ [] := by
  rcases splitExtension_cases name with none | ⟨stem, cutOff, cut, -, stays, -⟩
  · rwa [none]
  · rwa [cut]

/-- A path with another extension leads into the same directory, to another
name than before, if there is a dot in the extension. -/
theorem partsOf_withExtension
    {path extension : String}
    (hasName : HasName path)
    (noSlash : '/' ∉ extension.toList)
    (hasDot : '.' ∈ extension.toList) :
    ∃ front name other,
      partsOf path.toList = front ++ [name] ∧
        partsOf (withExtension path extension).toList = front ++ [other] ∧
        name ≠ ['.', '.'] ∧ other ≠ name := by
  obtain ⟨-, nameNoSlash, isFront⟩ := splitName_spec path.toList
  obtain ⟨cutName, cut_eq, stem_eq, cutNonempty, cutNoDot⟩ :=
    splitName_dropExtension hasName
  have noDots : (splitName path.toList).2 ≠ ['.', '.'] := fun dots =>
    hasName (.inr (.inr dots))
  have nonempty : (splitName path.toList).2 ≠ [] := fun empty =>
    hasName (.inl empty)
  refine ⟨partsOf (splitName path.toList).1.reverse, (splitName path.toList).2,
    if cutName = ['.', '.'] then ['.', '.']
    else (splitExtension (splitName path.toList).2).1 ++ '.' :: extension.toList,
    partsOf_splitName nonempty fun dot => hasName (.inr (.inl dot)), ?_,
    noDots, ?_⟩
  · simp only [withExtension, cut_eq, cutNonempty, cutNoDot, false_or]
    split
    · next isDots =>
      rw [String.toList_ofList, partsOf_splitName, cut_eq, isDots]
      · rwa [cut_eq]
      · rwa [cut_eq]
    · rw [String.toList_ofList, stem_eq, List.append_assoc]
      refine partsOf_front isFront ?_ (by simp) ?_
      · simp only [List.mem_append, List.mem_cons, noSlash, or_false]
        rintro (inStem | isDot)
        · exact nameNoSlash (mem_of_mem_stem inStem)
        · exact absurd isDot (by decide)
      · intro isDot
        have := congrArg List.length isDot
        have := List.length_pos_of_ne_nil (stem_ne_nil nonempty)
        simp at *
        omega
  · split
    · exact noDots.symm
    · exact stem_ne hasDot

end NetWorth.Path
