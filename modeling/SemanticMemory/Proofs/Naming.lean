import Mathlib.Data.List.DropRight
import SemanticMemory.Proofs.Catalogs

/-!
# The first fault of catalog names

Names that are not fit for use are refused for one reason.  The number of roles counts before the
identifiers, and of the identifiers the first that is blank or repeated is reported, with the
setting that gives it.  An identifier that is both counts as blank.
-/

namespace SemanticMemory

namespace Text

/-- The text without the white space at its beginning and at its end. -/
def trimmed (text : String) : String :=
  .ofList ((text.toList.dropWhile isWhiteSpace).rdropWhile isWhiteSpace)

/-- Blank is what leaves nothing when it is trimmed. -/
theorem trimmed_eq_empty_iff {text : String} : trimmed text = "" ↔ isBlank text = true := by
  rw [trimmed, String.ofList_eq_empty_iff, List.rdropWhile_eq_nil_iff, isBlank, List.all_eq_true]
  constructor
  · intro rest character member
    have whole : text.toList.takeWhile isWhiteSpace ++ text.toList.dropWhile isWhiteSpace =
        text.toList := List.takeWhile_append_dropWhile
    rw [← whole, List.mem_append] at member
    rcases member with leading | inRest
    · exact List.mem_takeWhile_imp leading
    · exact rest character inRest
  · intro each character inRest
    exact each character ((List.dropWhile_sublist _).mem inRest)

end Text

namespace ConfigError

theorem message_wrongRoleCount (given : Nat) :
    (wrongRoleCount 10 given).message =
      "Invalid parameter 'order_roles': expected 10 identifiers, got " ++ toString given := by
  have opening : "Invalid parameter 'order_roles': expected 10 identifiers, got " =
      "Invalid parameter '" ++ Parameter.orderRoles.text ++ "': " ++
        ("expected " ++ toString 10 ++ " identifiers, got ") := by decide
  rw [opening, String.append_assoc]
  rfl

theorem message_blankIdentifier (parameter : Parameter) :
    (blankIdentifier parameter).message =
      "Invalid parameter '" ++ parameter.text ++ "': identifier must not be empty" := by
  cases parameter <;> decide

theorem message_duplicateIdentifier (parameter : Parameter) (identifier : String) :
    (duplicateIdentifier parameter identifier).message =
      "Invalid parameter '" ++ parameter.text ++ "': duplicate identifier '" ++ identifier ++
        "'" := by
  have middle : "': duplicate identifier '" = "': " ++ "duplicate identifier '" := by decide
  change "Invalid parameter '" ++ parameter.text ++ "': " ++
    ("duplicate identifier '" ++ identifier ++ "'") = _
  rw [middle]
  simp only [String.append_assoc]

end ConfigError

namespace CatalogNames

variable {names : CatalogNames} {position : Nat} {error : ConfigError}

/-- The setting that gives the identifier at a position, where there are ten ordinal roles. -/
def parameterAt (position : Nat) : Parameter :=
  if position < 10 then .orderRoles
  else if position = 10 then .orderRoleRelation
  else .operatorAtomicType

/-- What is wrong with the identifier at a position: it is blank, or else it stands at an earlier
position as well. -/
inductive FaultAt (names : CatalogNames) (position : Nat) : ConfigError → Prop where
  | blank {identifier : String} (given : names.identifiers[position]? = some identifier)
      (blank : Text.trimmed identifier = "") :
      FaultAt names position (.blankIdentifier (parameterAt position))
  | duplicate {identifier : String} {earlier : Nat}
      (given : names.identifiers[position]? = some identifier)
      (filled : Text.trimmed identifier ≠ "") (before : earlier < position)
      (same : names.identifiers[earlier]? = some identifier) :
      FaultAt names position (.duplicateIdentifier (parameterAt position) identifier)

/-- Why names are refused. -/
inductive RefusedFor (names : CatalogNames) : ConfigError → Prop where
  | noRoles (none : names.orderRoles = []) : RefusedFor names (.missing .orderRoles)
  | miscounted (some : names.orderRoles ≠ []) (count : names.orderRoles.length ≠ 10) :
      RefusedFor names (.wrongRoleCount 10 names.orderRoles.length)
  | fault {position : Nat} {error : ConfigError} (ten : names.orderRoles.length = 10)
      (here : names.FaultAt position error)
      (first : ∀ earlier < position, ∀ other, ¬names.FaultAt earlier other) :
      RefusedFor names error

/-- Entries are checked in a row, and those read before count as seen. -/
theorem firstFault_append (seen : List String) (earlier later : List (Parameter × String)) :
    firstFault seen (earlier ++ later) =
      (firstFault seen earlier).or
        (firstFault ((earlier.map Prod.snd).reverse ++ seen) later) := by
  induction earlier generalizing seen with
  | nil => rfl
  | cons entry earlier ih =>
      obtain ⟨parameter, identifier⟩ := entry
      rw [List.cons_append, firstFault, firstFault]
      split
      · rfl
      · split
        · rfl
        · rw [ih, List.map_cons, List.reverse_cons, List.append_assoc, List.singleton_append]

theorem getElem?_entries (ten : names.orderRoles.length = 10) (position : Nat) :
    names.entries[position]? =
      names.identifiers[position]?.map (Prod.mk (parameterAt position)) := by
  rw [entries, identifiers]
  by_cases isRole : position < 10
  · rw [List.getElem?_append_left (by simpa [ten] using isRole), List.getElem?_map,
      List.getElem?_append_left (by simpa [ten] using isRole), parameterAt, if_pos isRole]
  · rw [List.getElem?_append_right (by simpa [ten] using isRole),
      List.getElem?_append_right (by simpa [ten] using isRole), List.length_map, ten, parameterAt,
      if_neg isRole]
    obtain ⟨rest, rfl⟩ := Nat.exists_eq_add_of_le (Nat.le_of_not_lt isRole)
    rw [Nat.add_sub_cancel_left]
    -- After the roles come the two settings with one identifier each, and then nothing.
    rcases rest with _ | _ | rest
    · rfl
    · rfl
    · rfl

theorem map_snd_take_entries (names : CatalogNames) (count : Nat) :
    (names.entries.take count).map Prod.snd = names.identifiers.take count := by
  rw [List.map_take, map_snd_entries]

theorem mem_take_identifiers_iff {identifier : String} :
    identifier ∈ names.identifiers.take position ↔
      ∃ earlier < position, names.identifiers[earlier]? = some identifier := by
  simp [List.mem_iff_getElem?, List.getElem?_take]

/-- The entry at a position, checked after those before it, shows what is wrong at the position. -/
theorem firstFault_at_eq_some_iff (ten : names.orderRoles.length = 10) :
    firstFault (names.identifiers.take position).reverse names.entries[position]?.toList =
        some error ↔ names.FaultAt position error := by
  rw [getElem?_entries ten]
  cases given : names.identifiers[position]? with
  | none =>
      refine iff_of_false nofun ?_
      rintro (⟨given', _⟩ | ⟨given', _⟩) <;> cases given.symm.trans given'
  | some identifier =>
      simp only [Option.map_some, Option.toList_some, firstFault, List.mem_reverse,
        mem_take_identifiers_iff, ← Text.trimmed_eq_empty_iff]
      constructor
      · intro found
        split at found
        · next blank =>
            cases found
            exact .blank given blank
        · next filled =>
            split at found
            · next repeated =>
                obtain ⟨earlier, before, same⟩ := repeated
                cases found
                exact .duplicate given filled before same
            · cases found
      · rintro (⟨given', blank⟩ | ⟨given', filled, before, same⟩)
        · cases given.symm.trans given'
          rw [if_pos blank]
        · cases given.symm.trans given'
          rw [if_neg filled, if_pos ⟨_, before, same⟩]

theorem firstFault_take_succ (names : CatalogNames) (count : Nat) :
    firstFault [] (names.entries.take (count + 1)) =
      (firstFault [] (names.entries.take count)).or
        (firstFault (names.identifiers.take count).reverse names.entries[count]?.toList) := by
  rw [List.take_add_one, firstFault_append, map_snd_take_entries, List.append_nil]

theorem firstFault_take_eq_none_iff (ten : names.orderRoles.length = 10) {count : Nat} :
    firstFault [] (names.entries.take count) = none ↔
      ∀ position < count, ∀ error, ¬names.FaultAt position error := by
  induction count with
  | zero => simp [firstFault]
  | succ count ih =>
      rw [firstFault_take_succ, Option.or_eq_none_iff, ih, Nat.forall_lt_succ_right]
      refine and_congr_right fun _ => ?_
      simp only [Option.eq_none_iff_forall_ne_some, ne_eq, firstFault_at_eq_some_iff ten]

/-- The fault that is found in the first entries is the first of the faults there are. -/
theorem firstFault_take_eq_some_iff (ten : names.orderRoles.length = 10) {count : Nat} :
    firstFault [] (names.entries.take count) = some error ↔
      ∃ position < count, names.FaultAt position error ∧
        ∀ earlier < position, ∀ other, ¬names.FaultAt earlier other := by
  induction count with
  | zero => simp [firstFault]
  | succ count ih =>
      rw [firstFault_take_succ, Option.or_eq_some_iff, ih, firstFault_take_eq_none_iff ten,
        firstFault_at_eq_some_iff ten, Nat.exists_lt_succ_right]
      exact or_congr_right and_comm

theorem FaultAt.lt_length (here : names.FaultAt position error) :
    position < names.entries.length := by
  have given : ∃ identifier, names.identifiers[position]? = some identifier := by
    rcases here with ⟨given, _⟩ | ⟨given, _⟩ <;> exact ⟨_, given⟩
  obtain ⟨_, given⟩ := given
  rw [← map_snd_entries] at given
  simpa using (List.getElem?_eq_some_iff.mp given).1

/-- Among ten roles and the two others, the first fault is reported. -/
theorem firstFault_entries_eq_some_iff (ten : names.orderRoles.length = 10) :
    firstFault [] names.entries = some error ↔
      ∃ position, names.FaultAt position error ∧
        ∀ earlier < position, ∀ other, ¬names.FaultAt earlier other := by
  rw [← List.take_length (l := names.entries), firstFault_take_eq_some_iff ten]
  exact exists_congr fun position => ⟨And.right, fun found => ⟨found.1.lt_length, found⟩⟩

theorem validate_eq_error_iff : names.validate = .error error ↔ names.RefusedFor error := by
  constructor
  · intro refused
    unfold validate at refused
    split at refused
    · next none =>
        cases refused
        exact .noRoles (List.length_eq_zero_iff.mp none)
    · next some =>
        split at refused
        · next ten =>
            split at refused
            · cases refused
            · next found =>
                cases refused
                obtain ⟨position, here, first⟩ := (firstFault_entries_eq_some_iff ten).mp found
                exact .fault ten here first
        · next count =>
            cases refused
            exact .miscounted (mt List.length_eq_zero_iff.mpr some) count
  · intro refused
    cases refused with
    | noRoles none => rw [validate, none, List.length_nil, if_pos rfl]
    | miscounted some count =>
        rw [validate, if_neg (mt List.length_eq_zero_iff.mp some),
          if_neg (show names.orderRoles.length ≠ roleCount from count)]
        rfl
    | fault ten here first =>
        rw [validate, if_neg (by omega), if_pos (show names.orderRoles.length = roleCount from ten),
          (firstFault_entries_eq_some_iff ten).mpr ⟨_, here, first⟩]

theorem text_parameterAt (position : Nat) :
    (parameterAt position).text =
      if position < 10 then "order_roles"
      else if position = 10 then "order_role_relation"
      else "operator_atomic_type" := by
  rw [parameterAt]
  split
  · rfl
  · split <;> rfl

/-- Names are accepted exactly when there are ten ordinal roles and the twelve identifiers are
neither blank nor equal to one another.  Otherwise they are refused for the first thing that is
wrong, and the message says so and names the setting. -/
theorem first_fault_reported (names : CatalogNames) :
    (names.validate = .ok () ↔
      names.orderRoles.length = 10 ∧
        (∀ identifier ∈ names.identifiers, Text.trimmed identifier ≠ "") ∧
        names.identifiers.Nodup) ∧
    (∀ error, names.validate = .error error ↔ names.RefusedFor error) ∧
    (ConfigError.missing .orderRoles).message = "Missing required parameter: order_roles" ∧
    (∀ given, (ConfigError.wrongRoleCount 10 given).message =
      "Invalid parameter 'order_roles': expected 10 identifiers, got " ++ toString given) ∧
    (∀ position, (parameterAt position).text =
      if position < 10 then "order_roles"
      else if position = 10 then "order_role_relation"
      else "operator_atomic_type") ∧
    (∀ parameter, (ConfigError.blankIdentifier parameter).message =
      "Invalid parameter '" ++ parameter.text ++ "': identifier must not be empty") ∧
    ∀ parameter identifier, (ConfigError.duplicateIdentifier parameter identifier).message =
      "Invalid parameter '" ++ parameter.text ++ "': duplicate identifier '" ++ identifier ++
        "'" := by
  have accepted : names.validate = .ok () ↔ names.orderRoles.length = 10 ∧
      (∀ identifier ∈ names.identifiers, Text.trimmed identifier ≠ "") ∧
      names.identifiers.Nodup := by
    simp only [validate_eq_ok_iff, ne_eq, Text.trimmed_eq_empty_iff, Bool.not_eq_true, roleCount]
  exact ⟨accepted, fun _ => validate_eq_error_iff, by decide, ConfigError.message_wrongRoleCount,
    text_parameterAt, ConfigError.message_blankIdentifier,
    ConfigError.message_duplicateIdentifier⟩

/-- The fourth role repeats the first, the seventh is blank, and so is the relation. -/
def faultyNames : CatalogNames where
  orderRoles := ["a", "b", "c", "a", "e", "f", " \u3000", "h", "i", "j"]
  orderRoleRelation := "\u0085"
  operatorAtomicType := "b"

/-- The repeated role is reported, and when it is given another name, the blank role is. -/
theorem first_fault_reported_at_faultyNames :
    let mended : CatalogNames :=
      { faultyNames with orderRoles := faultyNames.orderRoles.set 3 "d" }
    faultyNames.validate = .error (.duplicateIdentifier .orderRoles "a") ∧
      (ConfigError.duplicateIdentifier .orderRoles "a").message =
        "Invalid parameter 'order_roles': duplicate identifier 'a'" ∧
      mended.validate = .error (.blankIdentifier .orderRoles) ∧
      CatalogNames.standard.validate = .ok () := by
  intro mended
  have first : ∀ earlier < 3, ∀ other, ¬faultyNames.FaultAt earlier other :=
    (firstFault_take_eq_none_iff rfl).mp (by decide)
  have firstMended : ∀ earlier < 6, ∀ other, ¬mended.FaultAt earlier other :=
    (firstFault_take_eq_none_iff rfl).mp (by decide)
  obtain ⟨_, refused_iff, _, _, _, _, duplicate⟩ := first_fault_reported faultyNames
  obtain ⟨_, refusedMended_iff, _⟩ := first_fault_reported mended
  obtain ⟨accepted_iff, _⟩ := first_fault_reported .standard
  refine ⟨(refused_iff _).mpr (.fault rfl ?_ first), duplicate _ _,
    (refusedMended_iff _).mpr (.fault rfl ?_ firstMended), accepted_iff.mpr ?_⟩
  · exact .duplicate rfl (by decide) (Nat.zero_lt_succ 2) rfl
  · exact .blank rfl (by decide)
  · exact ⟨rfl, by decide +kernel, by decide +kernel⟩

end CatalogNames

end SemanticMemory
