import Mathlib.Data.List.Basic
import SchemaModules.Path.Chunk

/-! # Packing groups into chunks

Filling takes whole groups, as long as the chunk is below the target and no longer (`fills_fill`).
Packing parts the groups into chunks, all but the last of which reach the target. The groups being
given from the largest to the smallest, what fills a chunk up is no larger than what it starts with,
and a chunk of more than one group stays below twice the target (`exists_packs`).
-/

namespace SchemaModules.Path

open scoped List

/-- Groups fill a chunk up: those taken come first, the chunk reaches the target unless none are left,
and without the last group taken it does not. -/
structure Fills (target : Nat) (chunk : List String) (groups taken left : List (List String)) :
    Prop where
  split : groups = taken ++ left
  reached : left ≠ [] → target ≤ (chunk ++ taken.flatten).length
  needed : ∀ before last, taken = before ++ [last] → (chunk ++ before.flatten).length < target

theorem Fills.cons {target : Nat} {chunk group : List String} {groups taken left : List (List String)}
    (below : chunk.length < target) (fills : Fills target (chunk ++ group) groups taken left) :
    Fills target chunk (group :: groups) (group :: taken) left where
  split := congrArg (group :: ·) fills.split
  reached some := by simpa using fills.reached some
  needed := by
    intro before last parted
    cases before with
    | nil => simpa using below
    | cons first before =>
        obtain ⟨rfl, later⟩ := List.cons.inj parted
        simpa using fills.needed before last later

theorem exists_fills (target : Nat) (chunk : List String) (groups : List (List String)) :
    ∃ taken left, Fills target chunk groups taken left ∧
      fill target chunk groups = (chunk ++ taken.flatten, left) := by
  fun_induction fill target chunk groups with
  | case1 chunk => exact ⟨[], [], ⟨rfl, by simp, by simp⟩, by simp⟩
  | case2 chunk group rest below ih =>
      obtain ⟨taken, left, fills, filled⟩ := ih
      exact ⟨group :: taken, left, fills.cons below, by simp [filled]⟩
  | case3 chunk group rest full =>
      exact ⟨[], group :: rest, ⟨rfl, fun _ => by simpa using full, by simp⟩, by simp⟩

/-- Parts of groups that make up chunks: every group is in one of them, none is empty, all but the last
reach the target, and one of several groups stays below twice the target. -/
structure Packs (target : Nat) (groups : List (List String)) (parts : List (List (List String))) :
    Prop where
  perm : parts.flatten ~ groups
  nonempty : ∀ part ∈ parts, part ≠ []
  reached : ∀ part ∈ parts.dropLast, target ≤ part.flatten.length
  bounded : ∀ part ∈ parts, 1 < part.length → part.flatten.length ≤ 2 * target - 2

/-- Groups no larger than the one that they fill up stay below twice the target with it. -/
theorem Fills.length_le {target : Nat} {group : List String} {groups taken left : List (List String)}
    (fills : Fills target group groups taken left) (largest : ∀ g ∈ groups, g.length ≤ group.length)
    (some : taken ≠ []) : (group :: taken).flatten.length ≤ 2 * target - 2 := by
  obtain ⟨before, last, rfl⟩ := (List.eq_nil_or_concat' taken).resolve_left some
  have below := fills.needed before last rfl
  have smaller := largest last (by simp [fills.split])
  simp only [List.length_append] at below
  simp only [List.flatten_cons, List.flatten_append, List.flatten_nil, List.length_append,
    List.append_nil]
  omega

/-- A chunk filled up before the chunks that the groups left are packed into. -/
theorem Packs.cons {target : Nat} {group : List String} {rest taken left : List (List String)}
    {parts : List (List (List String))} (largest : ∀ g ∈ rest, g.length ≤ group.length)
    (fills : Fills target group rest.reverse taken left) (packs : Packs target left.reverse parts) :
    Packs target (group :: rest) ((group :: taken) :: parts) where
  perm := by
    rw [List.flatten_cons, List.cons_append]
    refine List.Perm.cons group ?_
    calc taken ++ parts.flatten
      _ ~ taken ++ left := (packs.perm.trans left.reverse_perm).append_left taken
      _ = rest.reverse := fills.split.symm
      _ ~ rest := rest.reverse_perm
  nonempty := List.forall_mem_cons.mpr ⟨List.cons_ne_nil _ _, packs.nonempty⟩
  reached := by
    cases parts with
    | nil => simp
    | cons part others =>
        -- Another chunk follows, so groups were left when this one was full.
        have some : left ≠ [] := by
          rintro rfl
          have none := List.flatten_eq_nil_iff.mp packs.perm.eq_nil
          exact packs.nonempty part List.mem_cons_self (none part List.mem_cons_self)
        rw [List.dropLast_cons_of_ne_nil (List.cons_ne_nil _ _)]
        exact List.forall_mem_cons.mpr ⟨by simpa using fills.reached some, packs.reached⟩
  bounded := by
    refine List.forall_mem_cons.mpr ⟨fun several => ?_, packs.bounded⟩
    refine fills.length_le (fun g member => largest g (List.mem_reverse.mp member)) ?_
    rintro rfl
    simp at several

/-- Groups from the largest to the smallest are packed into chunks. -/
theorem exists_packs (target : Nat) {groups : List (List String)}
    (descending : groups.Pairwise fun a b => b.length ≤ a.length) :
    ∃ parts, Packs target groups parts ∧ pack target groups = parts.map List.flatten := by
  match groups with
  | [] => exact ⟨[], ⟨.refl _, by simp, by simp, by simp⟩, by simp [pack]⟩
  | group :: rest =>
      obtain ⟨largest, later⟩ := List.pairwise_cons.mp descending
      obtain ⟨taken, left, fills, filled⟩ := exists_fills target group rest.reverse
      have remaining : left.reverse <+: rest := by
        rw [← List.reverse_reverse rest, fills.split, List.reverse_append]
        exact List.prefix_append _ _
      have shorter := remaining.length_le
      obtain ⟨parts, packs, packed⟩ := exists_packs target (later.sublist remaining.sublist)
      exact ⟨(group :: taken) :: parts, packs.cons largest fills, by simp [pack, filled, packed]⟩
termination_by groups.length
decreasing_by
  simp only [List.length_cons]
  omega

end SchemaModules.Path
