import GameCondition.Memo
import Mathlib.Data.List.Dedup
import Mathlib.Data.List.DropRight

/-! # The history of a memory

What a memory keeps after any calls is told by the calls alone: for each text, what the first of
the calls since the last clear made of a text with the same key (`get?_after`). From this follow
the answers of all further calls, what they compile, and the three counts
(`answers_and_counts_after`).

Calls are performed with every compilation noted (`noting`), so that what was compiled is part of
the history and not only what came of it.
-/

namespace GameCondition

namespace Memo

variable {α ε : Type}

/-! ## What a memory keeps -/

@[simp] theorem get?_empty (text : String) : (empty : Memo α).get? text = none := rfl

@[simp] theorem get?_clear (m : Memo α) (text : String) : m.clear.get? text = none := rfl

@[simp] theorem get?_hit (m : Memo α) (text : String) : m.hit.get? text = m.get? text := rfl

@[simp] theorem get?_miss (m : Memo α) (text : String) : m.miss.get? text = m.get? text := rfl

/-- A value is kept for all texts with its key. -/
theorem get?_keep (m : Memo α) (text text' : String) (value : α) :
    (m.keep text value).get? text' =
      if memoKey text' = memoKey text then some value else m.get? text' :=
  m.entries.get?_insert _ _ _

/-! ## Calls -/

/-- A call on a memory: to compile a text in a given way unless it is kept, to look a text up, or
to forget every entry. -/
inductive Call (ε α : Type) where
  | compile (text : String) (f : String → Except ε α)
  | get (text : String)
  | clear

/-- Whether a call may compile a text. -/
def Call.isCompile : Call ε α → Bool
  | compile .. => true
  | _ => false

/-- Whether a call forgets every entry. -/
def Call.isClear : Call ε α → Bool
  | clear => true
  | _ => false

/-- Compiles a text and notes that it was compiled. -/
def noting (f : String → Except ε α) (text : String) : StateM (List String) (Except ε α) := do
  modify fun texts => texts ++ [text]
  return f text

/-- What a call answers, and the memory after it. What is compiled is noted. -/
def perform (m : Memo α) : Call ε α → StateM (List String) (Option α × Memo α)
  | .compile text f => do
    let (result, m) ← m.getOrCompileM text (noting f)
    return (result.toOption, m)
  | .get text => return (m.get? text, m)
  | .clear => return (none, m.clear)

/-- A memory, and the texts that were compiled until then. -/
structure Trace (α : Type) where
  memo : Memo α
  compiled : List String

namespace Trace

/-- What the next call answers. -/
def answer (t : Trace α) (c : Call ε α) : Option α :=
  ((t.memo.perform c).run t.compiled).1.1

/-- The trace after the next call. -/
def next (t : Trace α) (c : Call ε α) : Trace α :=
  ⟨((t.memo.perform c).run t.compiled).1.2, ((t.memo.perform c).run t.compiled).2⟩

/-- The trace of some calls on a new memory. -/
def after (calls : List (Call ε α)) : Trace α :=
  calls.foldl next ⟨empty, []⟩

@[simp] theorem after_nil : after ([] : List (Call ε α)) = ⟨empty, []⟩ := rfl

@[simp] theorem after_append (calls : List (Call ε α)) (c : Call ε α) :
    after (calls ++ [c]) = (after calls).next c := by
  simp [after]

/-! ### One call -/

@[simp] theorem next_get (t : Trace α) (text : String) :
    t.next (.get text : Call ε α) = t := rfl

@[simp] theorem next_clear (t : Trace α) :
    t.next (.clear : Call ε α) = ⟨t.memo.clear, t.compiled⟩ := rfl

/-- What is kept is not compiled, and not even looked at. -/
theorem next_compile_of_kept {t : Trace α} {text : String} {value : α}
    (h : t.memo.get? text = some value) (f : String → Except ε α) :
    t.answer (.compile text f) = some value ∧
      t.next (.compile text f) = ⟨t.memo.hit, t.compiled⟩ := by
  simp only [answer, next, perform, getOrCompileM, h]
  exact ⟨rfl, rfl⟩

/-- What is not kept is compiled once, and is kept if that succeeds. -/
theorem next_compile_of_not_kept {t : Trace α} {text : String} (h : t.memo.get? text = none)
    (f : String → Except ε α) :
    t.answer (.compile text f) = (f text).toOption ∧
      t.next (.compile text f) =
        ⟨(f text).toOption.elim t.memo.miss (t.memo.miss.keep text), t.compiled ++ [text]⟩ := by
  cases hf : f text with
  | error e =>
      simp only [answer, next, perform, getOrCompileM, h, noting, hf]
      exact ⟨rfl, rfl⟩
  | ok value =>
      simp only [answer, next, perform, getOrCompileM, h, noting, hf]
      exact ⟨rfl, rfl⟩

/-! ### What is kept -/

/-- The calls since the memory was last cleared. -/
def sinceClear (calls : List (Call ε α)) : List (Call ε α) :=
  calls.rtakeWhile fun c => !c.isClear

/-- What a call successfully compiles a text with the key to. -/
def compiles? (key : String) : Call ε α → Option α
  | .compile text f => if memoKey text = key then (f text).toOption else none
  | _ => none

/-- What the first call since the last clear that succeeds compiles a text with the key to. -/
def firstCompiled? (calls : List (Call ε α)) (key : String) : Option α :=
  (sinceClear calls).findSome? (compiles? key)

/-- The key under which a call that succeeds keeps something. -/
def compiledKey? : Call ε α → Option String
  | .compile text f => (f text).toOption.map fun _ => memoKey text
  | _ => none

/-- The keys of the texts that were successfully compiled since the last clear. -/
def compiledKeys (calls : List (Call ε α)) : List String :=
  (sinceClear calls).filterMap compiledKey?

/-- A further call is one since the last clear, or is one itself. -/
theorem sinceClear_append (calls : List (Call ε α)) (c : Call ε α) :
    sinceClear (calls ++ [c]) = if c.isClear then [] else sinceClear calls ++ [c] := by
  cases c <;> simp [sinceClear, Call.isClear]

/-- A further call compiles a value when none was compiled for its key before. -/
theorem firstCompiled?_append (calls : List (Call ε α)) (c : Call ε α) (key : String) :
    firstCompiled? (calls ++ [c]) key =
      if c.isClear then none else (firstCompiled? calls key).or (compiles? key c) := by
  unfold firstCompiled?
  rw [sinceClear_append]
  cases c <;> simp [Call.isClear]

/-- Under each key a memory keeps what the first call since the last clear made of a text with
it. -/
theorem entry_after (calls : List (Call ε α)) (key : String) :
    (after calls).memo.entries.get? key = firstCompiled? calls key := by
  induction calls using List.reverseRecOn generalizing key with
  | nil => rfl
  | append_singleton calls c ih =>
      rw [after_append, firstCompiled?_append]
      cases c with
      | get text => simp [Call.isClear, compiles?, ih]
      | clear => simp [Call.isClear, clear]
      | compile text f =>
          simp only [Call.isClear, Bool.false_eq_true, if_false, compiles?]
          have hkept : (after calls).memo.get? text = firstCompiled? calls (memoKey text) := ih _
          cases hfirst : firstCompiled? calls (memoKey text) with
          | some value =>
              rw [(next_compile_of_kept (hkept.trans hfirst) f).2, hit, ih]
              -- what the call would have made of the text comes too late
              split
              · next hkey => rw [← hkey, hfirst, Option.some_or]
              · rw [Option.or_none]
          | none =>
              rw [(next_compile_of_not_kept (hkept.trans hfirst) f).2]
              cases hf : (f text).toOption with
              | none => simp [miss, ih]
              | some value =>
                  by_cases hkey : memoKey text = key
                  · subst hkey
                    simp [keep, Dict.get?_insert, hfirst]
                  · simp [keep, miss, Dict.get?_insert, ih, hkey, Ne.symm hkey]

/-- What is kept is what was first compiled for the key since the last clear. -/
theorem get?_after (calls : List (Call ε α)) (text : String) :
    (after calls).memo.get? text = firstCompiled? calls (memoKey text) :=
  entry_after calls (memoKey text)

/-! ### Counts -/

/-- Every call that may compile is a hit or a miss, and the misses are what was compiled. -/
theorem counts_after (calls : List (Call ε α)) :
    (after calls).memo.hits + (after calls).memo.misses = calls.countP Call.isCompile ∧
      (after calls).memo.misses = (after calls).compiled.length := by
  -- by induction on the calls from the last one
  induction calls using List.reverseRecOn with
  | nil => exact ⟨rfl, rfl⟩
  | append_singleton calls c ih =>
      rcases ih with ⟨hcalls, hmisses⟩
      rw [after_append, List.countP_append]
      cases c with
      | get text => simpa [Call.isCompile] using ⟨hcalls, hmisses⟩
      | clear => simpa [Call.isCompile, clear] using ⟨hcalls, hmisses⟩
      | compile text f =>
          -- a compile is a hit when a value is kept for its key, else a miss that compiles
          cases hkept : (after calls).memo.get? text with
          | some value =>
              rw [(next_compile_of_kept hkept f).2]
              simp only [hit, Call.isCompile, List.countP_singleton, if_true]
              omega
          | none =>
              rw [(next_compile_of_not_kept hkept f).2]
              cases (f text).toOption <;>
                simp only [Option.elim_none, Option.elim_some, keep, miss, Call.isCompile,
                  List.countP_singleton, if_true, List.length_append, List.length_singleton] <;>
                omega

/-- The compiled keys are those a value was compiled for. -/
theorem mem_compiledKeys_iff {calls : List (Call ε α)} {key : String} :
    key ∈ compiledKeys calls ↔ (firstCompiled? calls key).isSome = true := by
  rw [compiledKeys, firstCompiled?, List.mem_filterMap, List.findSome?_isSome_iff]
  refine exists_congr fun c => and_congr_right fun _ => ?_
  cases c with
  | compile text f =>
      by_cases hkey : memoKey text = key <;>
        cases hf : (f text).toOption <;> simp [compiledKey?, compiles?, hkey, hf]
  | get text => simp [compiledKey?, compiles?]
  | clear => simp [compiledKey?, compiles?]

/-- There is one entry for each key under which something was successfully compiled. -/
theorem size_after (calls : List (Call ε α)) :
    (after calls).memo.size = (compiledKeys calls).dedup.length := by
  have hmem : ∀ key, key ∈ (after calls).memo.entries.keys ↔ key ∈ (compiledKeys calls).dedup := by
    intro key
    rw [Dict.mem_keys_iff, entry_after, List.mem_dedup, mem_compiledKeys_iff]
  have hperm : (after calls).memo.entries.keys.Perm (compiledKeys calls).dedup :=
    (List.perm_ext_iff_of_nodup (Dict.nodup_keys _) (List.nodup_dedup _)).mpr hmem
  rw [← hperm.length_eq, size, Dict.keys, List.length_map]

/-! ## Whole histories -/

/-- After any calls on a new memory: a text is answered with what the first successful compilation
of a text with its key, since the last clear, gave; it is compiled just when there is none, and
only what that gives is added to the entries. Every call that may compile is counted as a hit or a
miss, the misses are the compilations, and the entries are as many as the keys under which one
succeeded since the last clear. -/
theorem answers_and_counts_after (calls : List (Call ε α)) :
    (∀ text, (after calls).answer (.get text : Call ε α) = firstCompiled? calls (memoKey text)) ∧
    (∀ text (f : String → Except ε α),
      (after calls).answer (.compile text f) =
        (firstCompiled? calls (memoKey text)).or (f text).toOption ∧
      (after (calls ++ [.compile text f])).compiled = (after calls).compiled ++
        (if (firstCompiled? calls (memoKey text)).isSome then [] else [text]) ∧
      ∀ key, (after (calls ++ [.compile text f])).memo.entries.get? key =
        ((after calls).memo.entries.get? key).or
          (if memoKey text = key then (f text).toOption else none)) ∧
    (after calls).memo.hits + (after calls).memo.misses = calls.countP Call.isCompile ∧
    (after calls).memo.misses = (after calls).compiled.length ∧
    (after calls).memo.size = (compiledKeys calls).dedup.length := by
  refine ⟨get?_after calls, fun text f => ⟨?_, ?_, fun key => ?_⟩, (counts_after calls).1,
    (counts_after calls).2, size_after calls⟩
  · cases hkept : (after calls).memo.get? text with
    | some value => rw [(next_compile_of_kept hkept f).1, ← get?_after, hkept, Option.some_or]
    | none => rw [(next_compile_of_not_kept hkept f).1, ← get?_after, hkept, Option.none_or]
  · rw [after_append, ← get?_after]
    cases hkept : (after calls).memo.get? text with
    | some value => simp [(next_compile_of_kept hkept f).2]
    | none => simp [(next_compile_of_not_kept hkept f).2]
  · rw [entry_after, entry_after, firstCompiled?_append]
    rfl

end Trace

end Memo

end GameCondition
