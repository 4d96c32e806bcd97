import Mathlib
import RefRules.Rule.File

/-!
# RefRules — rules by groups

Reading a rule file is a row of entries: a header names a group, and a rule names its group and goes
into it. The groups stand in the order in which the entries first name them, each with its rules in
the order of the entries. Where a file is imported under a group, its groups are renamed.

Main results:

* `ParsedRules.collect_nil_eq_grouped` — carrying out entries one by one sorts them by groups;
* `regroupName_inj` — groups that differ are still told apart under a group;
* `ParsedRules.under_collect` — renaming groups commutes with carrying out entries.
-/

namespace RefRules

/-- What a header or a rule does: it names a group, and a rule goes into it. -/
abbrev GroupEntry := String × Option Rule

namespace ParsedRules

/-! ## Entries in turn -/

/-- Carries out entries in turn. -/
def collect (p : ParsedRules) (entries : List GroupEntry) : ParsedRules :=
  entries.foldl (fun p e => p.append e.1 e.2.toList) p

theorem collect_cons (p : ParsedRules) (e : GroupEntry) (entries : List GroupEntry) :
    p.collect (e :: entries) = (p.append e.1 e.2.toList).collect entries := rfl

theorem collect_append (p : ParsedRules) (before after : List GroupEntry) :
    p.collect (before ++ after) = (p.collect before).collect after :=
  List.foldl_append

/-! ## Entries by groups -/

/-- The rules that entries put into a group, in their order. -/
def rulesIn (entries : List GroupEntry) (group : String) : List Rule :=
  entries.filterMap fun e => if e.1 = group then e.2 else none

/-- The groups that entries name, in the order of their first mention, each with its rules. -/
def grouped (entries : List GroupEntry) : ParsedRules :=
  (entries.map (·.1)).eraseDups.map fun group => (group, rulesIn entries group)

/-- A name at the end is new, or has been there. -/
theorem eraseDups_concat (names : List String) (name : String) :
    (names ++ [name]).eraseDups =
      if name ∈ names then names.eraseDups else names.eraseDups ++ [name] := by
  rw [List.eraseDups_append]
  split
  · next hOld => simp [List.removeAll, hOld]
  · next hNew => simp [List.removeAll, hNew, List.eraseDups_cons]

theorem nodup_eraseDups (names : List String) : names.eraseDups.Nodup := by
  induction names using List.reverseRecOn with
  | nil => exact .nil
  | append_singleton names name ih =>
    rw [eraseDups_concat]
    split
    · exact ih
    · next hNew =>
      rw [List.nodup_append]
      refine ⟨ih, List.nodup_singleton name, ?_⟩
      intro a ha b hb hSame
      rw [List.mem_singleton] at hb
      rw [List.mem_eraseDups, hSame, hb] at ha
      exact hNew ha

/-- A group that is there gets the rules at its end, another one begins behind all others. -/
theorem append_map {names : List String} (hNodup : names.Nodup) (rules : String → List Rule)
    (group : String) (new : List Rule) :
    append (names.map fun name => (name, rules name)) group new =
      if group ∈ names then
        names.map fun name => (name, if name = group then rules name ++ new else rules name)
      else (names.map fun name => (name, rules name)) ++ [(group, new)] := by
  induction names with
  | nil => rfl
  | cons name names ih =>
    obtain ⟨hHead, hTail⟩ := List.nodup_cons.mp hNodup
    rw [List.map_cons, append]
    by_cases hSame : name = group
    · -- the group is the first one, and no other has its name
      subst hSame
      have hOthers : ∀ other ∈ names, ¬other = name := fun other hMem hEq => hHead (hEq ▸ hMem)
      simp only [if_true, List.mem_cons, true_or, List.map_cons, List.cons.injEq, true_and]
      exact List.map_congr_left fun other hMem => by simp [hOthers other hMem]
    · have hMem : group ∈ name :: names ↔ group ∈ names := by
        simp [List.mem_cons, Ne.symm hSame]
      rw [if_neg hSame, ih hTail]
      simp only [hMem, List.map_cons, hSame, if_false]
      split <;> rfl

theorem rulesIn_concat (entries : List GroupEntry) (e : GroupEntry) (group : String) :
    rulesIn (entries ++ [e]) group =
      if group = e.1 then rulesIn entries group ++ e.2.toList else rulesIn entries group := by
  unfold rulesIn
  rw [List.filterMap_append]
  by_cases hSame : group = e.1
  · cases hRule : e.2 <;> simp [hSame, hRule]
  · simp [hSame, Ne.symm hSame]

theorem rulesIn_eq_nil {entries : List GroupEntry} {group : String}
    (h : group ∉ entries.map (·.1)) : rulesIn entries group = [] := by
  rw [rulesIn, List.filterMap_eq_nil_iff]
  intro e he
  rw [if_neg]
  rintro rfl
  exact h (List.mem_map_of_mem he)

/-- One more entry, carried out behind the others. -/
theorem grouped_concat (entries : List GroupEntry) (e : GroupEntry) :
    grouped (entries ++ [e]) = (grouped entries).append e.1 e.2.toList := by
  unfold grouped
  -- both sides look for the group among those that were named before
  rw [append_map (nodup_eraseDups _), List.map_append, List.map_singleton, eraseDups_concat]
  simp only [List.mem_eraseDups]
  split
  · -- an old group: only its own rules change
    refine List.map_congr_left fun group _ => ?_
    rw [rulesIn_concat]
  · next hNew =>
    rw [List.map_append, List.map_singleton, rulesIn_concat, if_pos rfl, rulesIn_eq_nil hNew,
      List.nil_append]
    congr 1
    refine List.map_congr_left fun group hGroup => ?_
    rw [rulesIn_concat, if_neg]
    rintro rfl
    exact hNew (List.mem_eraseDups.mp hGroup)

/-- Carried out in turn, entries give their groups in the order of first mention. -/
theorem collect_nil_eq_grouped (entries : List GroupEntry) : collect [] entries = grouped entries := by
  induction entries using List.reverseRecOn with
  | nil => rfl
  | append_singleton entries e ih =>
    rw [collect_append, ih, grouped_concat]
    rfl

/-- Every group that is named is there in the end. -/
theorem mem_names_collect {entries : List GroupEntry} {e : GroupEntry} (h : e ∈ entries) :
    e.1 ∈ (collect [] entries).names := by
  rw [collect_nil_eq_grouped, grouped, names, List.map_map]
  show e.1 ∈ (entries.map (·.1)).eraseDups.map id
  rw [List.map_id, List.mem_eraseDups]
  exact List.mem_map_of_mem h

end ParsedRules

/-! ## Renaming groups -/

/-- What the group `name` of a file is called where the file is imported under `g`. -/
def regroupName (g name : String) : String :=
  if name = anonymousGroup then g
  else if g = anonymousGroup then name
  else g ++ "." ++ name

def Rule.regroup (g : String) (r : Rule) : Rule :=
  { r with group := regroupName g r.group }

def GroupEntry.regroup (g : String) (e : GroupEntry) : GroupEntry :=
  (regroupName g e.1, e.2.map (Rule.regroup g))

theorem regroupName_anonymousGroup (g : String) : regroupName g anonymousGroup = g :=
  if_pos rfl

theorem regroupName_under_anonymousGroup (name : String) :
    regroupName anonymousGroup name = name := by
  unfold regroupName
  split
  · next hName => exact hName.symm
  · rfl

theorem regroupName_of_ne {g name : String} (hGroup : g ≠ anonymousGroup)
    (hName : name ≠ anonymousGroup) : regroupName g name = g ++ "." ++ name := by
  rw [regroupName, if_neg hName, if_neg hGroup]

theorem GroupEntry.regroup_anonymousGroup (e : GroupEntry) : e.regroup anonymousGroup = e := by
  have hRule : ∀ r : Rule, r.regroup anonymousGroup = r := by
    intro r
    rw [Rule.regroup, regroupName_under_anonymousGroup]
  obtain ⟨group, rule?⟩ := e
  rw [regroup, regroupName_under_anonymousGroup, funext hRule, Option.map_id']

/-- A name with a dot in it is not that of the anonymous group. -/
theorem prefixed_ne_anonymousGroup (g name : String) : g ++ "." ++ name ≠ anonymousGroup := by
  intro hSame
  have hDot : '.' ∈ (g ++ "." ++ name).toList := by simp
  rw [hSame] at hDot
  exact absurd hDot (by decide)

theorem prefixed_ne (g name : String) : g ++ "." ++ name ≠ g := by
  intro hSame
  have hLength := congrArg String.length hSame
  have hDot : ".".length = 1 := rfl
  simp only [String.length_append] at hLength
  omega

/-- Names that differ are still told apart under a group. -/
theorem regroupName_inj {g a b : String} : regroupName g a = regroupName g b ↔ a = b := by
  refine ⟨fun hSame => ?_, fun hSame => hSame ▸ rfl⟩
  by_cases hGroup : g = anonymousGroup
  · -- nothing is renamed
    subst hGroup
    rwa [regroupName_under_anonymousGroup, regroupName_under_anonymousGroup] at hSame
  by_cases ha : a = anonymousGroup
  · by_cases hb : b = anonymousGroup
    · rw [ha, hb]
    · rw [ha, regroupName_anonymousGroup, regroupName_of_ne hGroup hb] at hSame
      exact absurd hSame.symm (prefixed_ne g b)
  · -- both names have the prefix, or one of them is the prefix alone
    by_cases hb : b = anonymousGroup
    · rw [hb, regroupName_anonymousGroup, regroupName_of_ne hGroup ha] at hSame
      exact absurd hSame (prefixed_ne g a)
    · rw [regroupName_of_ne hGroup ha, regroupName_of_ne hGroup hb] at hSame
      exact String.append_right_inj _ |>.mp hSame

namespace ParsedRules

/-- The groups of a file under `g` but for the anonymous one. -/
def others (g : String) (p : ParsedRules) : ParsedRules :=
  (p.filter fun e => e.1 ≠ anonymousGroup).map fun e => (regroupName g e.1, e.2.map (Rule.regroup g))

/-- The groups of a file under `g`: the group `g` itself, with the rules of the anonymous group, and
all others in their order. -/
def under (g : String) (p : ParsedRules) : ParsedRules :=
  (g, ((p.lookup anonymousGroup).getD []).map (Rule.regroup g)) :: others g p

theorem lookup_cons_of_ne {name other : String} (hOther : other ≠ name) (rules : List Rule)
    (p : ParsedRules) : List.lookup other ((name, rules) :: p) = p.lookup other := by
  rw [List.lookup_cons, beq_false_of_ne hOther]

/-- Only the group that rules are appended to has others then. -/
theorem lookup_append (p : ParsedRules) (group other : String) (rules : List Rule) :
    (p.append group rules).lookup other =
      if other = group then some ((p.lookup other).getD [] ++ rules) else p.lookup other := by
  induction p with
  | nil =>
    rw [append]
    by_cases hOther : other = group
    · rw [hOther, List.lookup_cons_self, if_pos rfl]
      rfl
    · rw [lookup_cons_of_ne hOther, if_neg hOther]
  | cons e p ih =>
    obtain ⟨name, old⟩ := e
    rw [append]
    by_cases hName : name = group
    · rw [if_pos hName]
      by_cases hOther : other = group
      · rw [if_pos hOther, hOther, ← hName, List.lookup_cons_self, List.lookup_cons_self]
        rfl
      · have hNe : other ≠ name := fun hSame => hOther (hSame.trans hName)
        rw [if_neg hOther, lookup_cons_of_ne hNe, lookup_cons_of_ne hNe]
    · rw [if_neg hName]
      by_cases hSame : other = name
      · -- the first group is asked for, and it is not the one with new rules
        rw [hSame, List.lookup_cons_self, List.lookup_cons_self, if_neg hName]
      · rw [lookup_cons_of_ne hSame, lookup_cons_of_ne hSame, ih]

theorem others_cons_of_ne {g name : String} (hName : name ≠ anonymousGroup) (rules : List Rule)
    (p : ParsedRules) :
    others g ((name, rules) :: p) = (regroupName g name, rules.map (Rule.regroup g)) :: others g p := by
  simp [others, hName]

theorem others_cons_anonymousGroup (g : String) (rules : List Rule) (p : ParsedRules) :
    others g ((anonymousGroup, rules) :: p) = others g p := by
  simp [others]

theorem others_append_anonymousGroup (g : String) (p : ParsedRules) (rules : List Rule) :
    others g (p.append anonymousGroup rules) = others g p := by
  induction p with
  | nil => exact others_cons_anonymousGroup g rules []
  | cons e p ih =>
    obtain ⟨name, old⟩ := e
    rw [append]
    by_cases hName : name = anonymousGroup
    · rw [if_pos hName, hName, others_cons_anonymousGroup, others_cons_anonymousGroup]
    · rw [if_neg hName, others_cons_of_ne hName, others_cons_of_ne hName, ih]

theorem others_append_of_ne {g group : String} (hGroup : group ≠ anonymousGroup) (p : ParsedRules)
    (rules : List Rule) :
    others g (p.append group rules) =
      (others g p).append (regroupName g group) (rules.map (Rule.regroup g)) := by
  induction p with
  | nil => exact others_cons_of_ne hGroup rules []
  | cons e p ih =>
    obtain ⟨name, old⟩ := e
    rw [append]
    by_cases hName : name = anonymousGroup
    · -- the anonymous group is passed over, before and after
      have hOther : ¬anonymousGroup = group := fun hSame => hGroup hSame.symm
      rw [hName, if_neg hOther, others_cons_anonymousGroup, others_cons_anonymousGroup, ih]
    · rw [others_cons_of_ne hName, append]
      by_cases hSame : name = group
      · rw [if_pos hSame, if_pos (congrArg (regroupName g) hSame), others_cons_of_ne hName,
          List.map_append]
      · rw [if_neg hSame, if_neg (fun h => hSame (regroupName_inj.mp h)), others_cons_of_ne hName, ih]

/-- Appending to a group and then renaming all groups is renaming first. -/
theorem under_append (g : String) (p : ParsedRules) (group : String) (rules : List Rule) :
    under g (p.append group rules) =
      (under g p).append (regroupName g group) (rules.map (Rule.regroup g)) := by
  rw [under, under, append, lookup_append]
  by_cases hGroup : group = anonymousGroup
  · subst hGroup
    rw [if_pos rfl, if_pos (regroupName_anonymousGroup g).symm, others_append_anonymousGroup,
      Option.getD_some, List.map_append]
  · have hOther : ¬g = regroupName g group := by
      intro hSame
      rw [← regroupName_inj, regroupName_anonymousGroup] at hGroup
      exact hGroup hSame.symm
    rw [if_neg (Ne.symm hGroup), if_neg hOther, others_append_of_ne hGroup]

/-- The entries of a file with their groups renamed give its rules with their groups renamed. -/
theorem under_collect (g : String) (p : ParsedRules) (entries : List GroupEntry) :
    under g (p.collect entries) = (under g p).collect (entries.map (GroupEntry.regroup g)) := by
  induction entries generalizing p with
  | nil => rfl
  | cons e entries ih =>
    obtain ⟨group, rule?⟩ := e
    rw [collect_cons, ih, under_append, List.map_cons, collect_cons]
    cases rule? <;> rfl

/-- No group of a file is renamed to what a header `#anonymous` is called under a group. -/
theorem not_mem_names_under {g : String} (hGroup : g ≠ anonymousGroup) (p : ParsedRules) :
    g ++ "." ++ anonymousGroup ∉ (under g p).names := by
  intro hMem
  rcases List.mem_cons.mp hMem with hFirst | hOther
  · exact prefixed_ne g anonymousGroup hFirst
  · rw [others, List.map_map, List.mem_map] at hOther
    obtain ⟨⟨name, rules⟩, hMem, hName⟩ := hOther
    have hNe : name ≠ anonymousGroup := of_decide_eq_true (List.mem_filter.mp hMem).2
    have hSame : regroupName g name = g ++ "." ++ anonymousGroup := hName
    rw [regroupName_of_ne hGroup hNe, String.append_right_inj] at hSame
    exact hNe hSame

end ParsedRules

end RefRules
