import RemoteBoot.Json.Record

/-!
# Members that override a record

A record is described by an object if each known name stands in it at most once, with a value that
gives its field, and every field in which the record differs from the start is there.  Taking the
members over one by one moves names from the members to those given, and the record on the way is
known from the names given: it has those fields already and the others still from the start.
-/

set_option autoImplicit false

namespace RemoteBoot.Json

variable {α : Type}

/-- Members in any order that give every field in which a record differs from a start.  Members of
other names may stand between them. -/
structure Overrides (names : List Text) (Gives : Text → Json → Prop) (Differs : Text → Prop)
    (members : List (Option Text × Json)) : Prop where
  once : ∀ name ∈ names, (members.map Prod.fst).count (some name) ≤ 1
  given : ∀ name ∈ names, ∀ value, (some name, value) ∈ members → Gives name value
  told : ∀ name, Differs name → some name ∈ members.map Prod.fst

/-- Every member has a name that is a text. -/
def Named (members : List (Option Text × Json)) : Prop :=
  none ∉ members.map Prod.fst

instance (members : List (Option Text × Json)) : Decidable (Named members) :=
  inferInstanceAs (Decidable (none ∉ members.map Prod.fst))

/-- How the fields of a record lead from a start to a target: `merged given` is the record when the
names in `given` were taken over. -/
structure Merges (fields : List (Field α)) (Gives : Text → Json → Prop) (Differs : Text → Prop)
    (start target : α) (merged : List Text → α) : Prop where
  start : merged [] = start
  step : ∀ name value given, Gives name value →
    ∃ field, fields.find? (fun field => field.name = name) = some field ∧
      field.set? value (merged given) = some (merged (name :: given))
  target : ∀ given, (∀ name, Differs name → name ∈ given) → merged given = target
  known : ∀ name, Differs name → name ∈ fields.map Field.name

/-- A field on the way: it is the target's if its name was given. -/
def pick {β : Type} (given : List Text) (name : Text) (mine other : β) : β :=
  if given.contains name then mine else other

section Picking

variable {β : Type} {given : List Text} {name first : Text} {mine other : β}

theorem pick_self : pick (name :: given) name mine other = mine :=
  if_pos (List.contains_iff_mem.mpr List.mem_cons_self)

theorem pick_apart (apart : name ≠ first) :
    pick (first :: given) name mine other = pick given name mine other := by
  simp only [pick, List.contains_iff_mem, List.mem_cons, apart, false_or]

/-- A field that was not given is the target's if it did not have to be. -/
theorem pick_told [DecidableEq β] (told : mine ≠ other → name ∈ given) :
    pick given name mine other = mine := by
  by_cases same : mine = other
  · rw [pick, same, ite_self]
  · exact if_pos (List.contains_iff_mem.mpr (told same))

/-- A field takes over what it reads from a value. -/
theorem set_of_read {read : Option β} {value : β} {put : β → α} {next : α}
    (found : read = some value) (taken : put value = next) :
    (read.bind fun value => some (put value)) = some next := by
  rw [found, Option.bind_some, taken]

end Picking

/-- The names that were given and those that are still to come hold each known name once. -/
def Once (names given : List Text) (members : List (Option Text × Json)) : Prop :=
  ∀ name ∈ names, (given.map some ++ members.map Prod.fst).count (some name) ≤ 1

section Once

variable {names given : List Text} {name : Text} {member : Option Text × Json} {value : Json}
  {members : List (Option Text × Json)}

theorem Once.skip (once : Once names given (member :: members)) : Once names given members := by
  intro name known
  have bound := once name known
  rw [List.count_append, List.map_cons, List.count_cons] at bound
  rw [List.count_append]
  omega

theorem Once.fresh (once : Once names given ((some name, value) :: members))
    (known : name ∈ names) : name ∉ given := by
  intro before
  have bound := once name known
  have counted : 0 < (given.map some).count (some name) :=
    List.count_pos_iff.mpr (List.mem_map_of_mem before)
  rw [List.count_append, List.map_cons, List.count_cons_self] at bound
  omega

theorem Once.take (once : Once names given ((some name, value) :: members)) :
    Once names (name :: given) members := by
  intro other known
  have bound := once other known
  rw [List.count_append, List.map_cons, List.count_cons] at bound ⊢
  dsimp only at bound
  omega

end Once

section Taking

variable {fields : List (Field α)} {Gives : Text → Json → Prop} {Differs : Text → Prop}
  {start target : α} {merged : List Text → α}

theorem name_of_find {field : Field α} {name : Text}
    (found : fields.find? (fun field => field.name = name) = some field) :
    name ∈ fields.map Field.name := by
  have same : field.name = name := by simpa using List.find?_some found
  exact List.mem_map.mpr ⟨field, List.mem_of_find?_eq_some found, same⟩

theorem unknown_of_find {name : Text}
    (missing : fields.find? (fun field => field.name = name) = none) :
    name ∉ fields.map Field.name := by
  intro known
  obtain ⟨field, listed, same⟩ := List.mem_map.mp known
  exact absurd same (by simpa using List.find?_eq_none.mp missing field listed)

theorem set_members_unknown {given : List Text} {name : Text} {value : Json}
    {members : List (Option Text × Json)} {record : α}
    (unknown : fields.find? (fun field => field.name = name) = none) :
    setMembers? fields given ((some name, value) :: members) record =
      setMembers? fields given members record := by
  rw [setMembers?, unknown]

theorem set_members_known {given : List Text} {field : Field α} {name : Text} {value : Json}
    {members : List (Option Text × Json)} {record next : α}
    (found : fields.find? (fun field => field.name = name) = some field) (fresh : name ∉ given)
    (set : field.set? value record = some next) :
    setMembers? fields given ((some name, value) :: members) record =
      setMembers? fields (name :: given) members next := by
  simp only [setMembers?, found, fresh, set, if_false, Option.bind_eq_bind, Option.bind_some]

/-- From any names given the members lead to a record with all names of both. -/
theorem set_members_merged (merges : Merges fields Gives Differs start target merged)
    {members : List (Option Text × Json)} (given : List Text) (named : Named members)
    (once : Once (fields.map Field.name) given members)
    (values : ∀ name ∈ fields.map Field.name, ∀ value, (some name, value) ∈ members →
      Gives name value) :
    ∃ final, setMembers? fields given members (merged given) = some (merged final) ∧
      ∀ name ∈ fields.map Field.name, name ∈ given ∨ some name ∈ members.map Prod.fst →
        name ∈ final := by
  induction members generalizing given with
  | nil => exact ⟨given, rfl, fun name _ told => told.resolve_right nofun⟩
  | cons member members ih =>
      obtain ⟨found, value⟩ := member
      have others : Named members := fun nameless => named (List.mem_cons_of_mem _ nameless)
      have further : ∀ name ∈ fields.map Field.name, ∀ value, (some name, value) ∈ members →
          Gives name value := fun name known value listed =>
        values name known value (List.mem_cons_of_mem _ listed)
      cases found with
      | none => exact absurd List.mem_cons_self named
      | some first =>
          cases found : fields.find? fun field => field.name = first with
          | none =>
              obtain ⟨final, read, all⟩ := ih given others once.skip further
              refine ⟨final, by rw [set_members_unknown found, read], fun name known told => ?_⟩
              refine all name known (told.imp_right fun listed => ?_)
              refine (List.mem_cons.mp listed).resolve_left fun same => unknown_of_find found ?_
              cases same
              exact known
          | some field =>
              have known := name_of_find found
              obtain ⟨same, located, set⟩ :=
                merges.step first value given (values first known value List.mem_cons_self)
              cases found.symm.trans located
              obtain ⟨final, read, all⟩ := ih _ others once.take further
              refine ⟨final, by rw [set_members_known found (once.fresh known) set, read],
                fun name known told => all name known ?_⟩
              rw [List.map_cons, List.mem_cons, Option.some.injEq] at told
              rw [List.mem_cons, or_assoc, or_left_comm]
              exact told

theorem set_members_of_overrides (merges : Merges fields Gives Differs start target merged)
    {members : List (Option Text × Json)}
    (overrides : Overrides (fields.map Field.name) Gives Differs members)
    (named : Named members) : setMembers? fields [] members start = some target := by
  obtain ⟨final, read, all⟩ :=
    set_members_merged merges [] named overrides.once overrides.given
  have full : merged final = target := merges.target final fun name differs =>
    all name (merges.known name differs) (Or.inr (overrides.told name differs))
  rw [← merges.start, read, full]

/-- One member that cannot be taken over is enough for no record. -/
theorem set_members_refused {member : Option Text × Json}
    (refused : ∀ given members record,
      setMembers? fields given (member :: members) record = none)
    {members : List (Option Text × Json)} (listed : member ∈ members) (given : List Text)
    (record : α) : setMembers? fields given members record = none := by
  fun_induction setMembers? fields given members record with
  | case1 => cases listed
  | case2 => rfl
  | case3 given name value members record unknown ih =>
      rcases List.mem_cons.mp listed with rfl | listed
      · rw [← refused given members record, set_members_unknown unknown]
      · exact ih listed
  | case4 => rfl
  | case5 given name value members record field found fresh ih =>
      rcases List.mem_cons.mp listed with rfl | listed
      · have refusal := refused given members record
        simpa only [setMembers?, found, fresh, if_false] using refusal
      · rw [Option.bind_eq_bind, Option.bind_eq_none_iff]
        exact fun next _ => ih next listed

theorem set_members_nameless {members : List (Option Text × Json)} (nameless : ¬Named members)
    (given : List Text) (record : α) : setMembers? fields given members record = none := by
  obtain ⟨⟨_, value⟩, listed, rfl⟩ := List.mem_map.mp (Decidable.not_not.mp nameless)
  exact set_members_refused (fun _ _ _ => rfl) listed given record

theorem set_members_unset {field : Field α} {name : Text} {value : Json}
    (found : fields.find? (fun field => field.name = name) = some field)
    (unset : ∀ record, field.set? value record = none) {members : List (Option Text × Json)}
    (listed : (some name, value) ∈ members) (given : List Text) (record : α) :
    setMembers? fields given members record = none := by
  refine set_members_refused (fun given members record => ?_) listed given record
  simp only [setMembers?, found, unset, Option.bind_eq_bind, Option.bind_none, ite_self]

end Taking

end RemoteBoot.Json
