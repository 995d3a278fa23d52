import Mathlib.Data.List.Basic
import Mathlib.Logic.Function.Basic
import Roofline.Library.Runs

/-!
# Library - Threads that execute lists of operations

Each thread has a list of operations that it still has to execute.  An operation changes what the
threads share, may have to wait, and may come down to other operations that the thread executes
next.  A thread may also be interrupted: it then executes other operations before it goes on.

Main results:

- Theorem {lit}`Run.trace_eq`: operations that nothing comes down to are executed in the order of
  the program, whatever happens in between.
- Theorem {lit}`Run.programOrder`: what is ordered in the program of a thread is ordered in every
  history.
- Theorem {lit}`Run.happensBefore`: an order that holds whenever an operation is executed.
- Theorem {lit}`Run.permitted`: what all operations that may be executed have in common.
- Theorem {lit}`Run.guarded`: operations that stay behind others until these release them.
-/

namespace Roofline
namespace Threads

open Runs

/-! ## Orders in a list -/

section Orders

variable {α : Type} {l : List α} {x y z : α}

/-- Every {lit}`y` in the list has an {lit}`x` somewhere before it. -/
def HappensBefore (l : List α) (x y : α) : Prop :=
  ∀ before after, l = before ++ y :: after → x ∈ before

/-- In an empty list nothing comes before anything. -/
theorem happensBefore_nil (x y : α) : HappensBefore [] x y := by
  intro before after h
  simp at h

/-- What has to come before is there. -/
theorem HappensBefore.mem (h : HappensBefore l x y) (hy : y ∈ l) : x ∈ l := by
  rcases List.append_of_mem hy with ⟨before, after, rfl⟩
  exact List.mem_append_left _ (h before after rfl)

/-- Nothing comes before itself. -/
theorem HappensBefore.not_mem (h : HappensBefore l x x) : x ∉ l := by
  intro hx
  rcases List.eq_append_cons_of_mem hx with ⟨before, after, hsplit, hfresh⟩
  exact hfresh (h before after hsplit)

/-- What is ordered in a part that contains the later element is ordered in the list. -/
theorem HappensBefore.of_filter {p : α → Bool} (hy : p y = true)
    (h : HappensBefore (l.filter p) x y) : HappensBefore l x y := by
  rintro before after rfl
  have hx := h (before.filter p) (after.filter p) (by simp [hy])
  exact (List.mem_filter.mp hx).1

/-- The order is transitive. -/
theorem HappensBefore.trans (hxy : HappensBefore l x y) (hyz : HappensBefore l y z) :
    HappensBefore l x z := by
  intro before after hsplit
  rcases List.append_of_mem (hyz before after hsplit) with ⟨first, second, rfl⟩
  have hx := hxy first (second ++ z :: after) (by simp [hsplit])
  exact List.mem_append_left _ hx

/-- The order after one more element. -/
theorem happensBefore_append_singleton :
    HappensBefore (l ++ [z]) x y ↔ HappensBefore l x y ∧ (z = y → x ∈ l) := by
  constructor
  · intro h
    refine ⟨?_, ?_⟩
    · intro before after hsplit
      exact h before (after ++ [z]) (by simp [hsplit])
    · rintro rfl
      exact h l [] rfl
  · rintro ⟨h, hlast⟩ before after hsplit
    rcases List.eq_nil_or_concat after with rfl | ⟨after, w, rfl⟩
    · rcases List.append_inj' hsplit rfl with ⟨rfl, hz⟩
      exact hlast (List.singleton_inj.mp hz)
    · have hshape : l ++ [z] = (before ++ y :: after) ++ [w] := by simpa using hsplit
      exact h before after (List.append_inj' hshape rfl).1

/-- An element is after those of a part that it does not occur in. -/
theorem happensBefore_append {front rest : List α} (hx : x ∈ front) (hy : y ∉ front) :
    HappensBefore (front ++ rest) x y := by
  intro before after hsplit
  rcases List.append_eq_append_iff.mp hsplit with ⟨more, rfl, _⟩ | ⟨more, rfl, hmore⟩
  · exact List.mem_append_left _ hx
  · cases more with
    | nil => rwa [List.append_nil] at hx
    | cons first more =>
        rcases List.cons.inj hmore with ⟨rfl, _⟩
        exact absurd (List.mem_append_right _ List.mem_cons_self) hy

/-- Elements that are different are in the order of the list. -/
theorem pairwise_happensBefore (hnodup : l.Nodup) : l.Pairwise (HappensBefore l) := by
  suffices h : ∀ front rest : List α, front ++ rest = l →
      rest.Pairwise (HappensBefore l) from h [] l rfl
  intro front rest hsplit
  induction rest generalizing front with
  | nil => exact List.Pairwise.nil
  | cons first rest ih =>
      refine List.pairwise_cons.mpr ⟨?_, ih (front ++ [first]) (by simp [hsplit])⟩
      intro y hy
      have hshape : (front ++ [first]) ++ rest = l := by simp [hsplit]
      have hfresh : y ∉ front ++ [first] := by
        rw [← hshape] at hnodup
        exact fun hmem => (List.nodup_append.mp hnodup).2.2 y hmem y hy rfl
      rw [← hshape]
      exact happensBefore_append (by simp) hfresh

/-- A front of a list that has an element of the second part has all of the first one. -/
theorem exists_eq_append {part rest front back : List α} (h : part ++ rest = front ++ back)
    (hx : x ∈ part) (hfront : x ∉ front) : ∃ more, part = front ++ more ∧ more ++ rest = back := by
  rcases List.append_eq_append_iff.mp h with ⟨more, hshort, _⟩ | ⟨more, rfl, hmore⟩
  · exact absurd (hshort ▸ List.mem_append_left more hx) hfront
  · exact ⟨more, rfl, hmore.symm⟩

/-- A front of a list that misses an element of the first part has nothing of the second one. -/
theorem mem_front_of_append {part rest front back : List α} (h : part ++ rest = front ++ back)
    (hx : x ∉ part) (hfront : x ∈ front) : ∀ z ∈ part, z ∈ front := by
  intro z hz
  rcases List.append_eq_append_iff.mp h with ⟨more, hshort, _⟩ | ⟨more, hlong, _⟩
  · exact hshort ▸ List.mem_append_left more hz
  · exact absurd (hlong ▸ List.mem_append_left more hfront) hx

/-- Leaving out what is mapped to nothing changes nothing. -/
theorem filterMap_filter_of_isSome {β : Type} {p : α → Bool} {f : α → Option β}
    (h : ∀ x, (f x).isSome = true → p x = true) (l : List α) :
    (l.filter p).filterMap f = l.filterMap f := by
  rw [List.filterMap_filter]
  refine List.filterMap_congr fun x _ => ?_
  cases hx : f x with
  | none => simp
  | some y => simp [h x (by simp [hx])]

/-- The order can be chained. -/
instance : Trans (HappensBefore l) (HappensBefore l) (HappensBefore l) where
  trans := HappensBefore.trans

end Orders

/-! ## Threads -/

section Model

variable (Thread Op Shared : Type)

/-- What the operations do. -/
structure Semantics where
  /-- The operations that the next one of a thread comes down to, and the new shared state. -/
  execute : Thread → Op → Shared → Option (List Op × Shared)
  /-- The operations that a thread is interrupted with. -/
  interrupt : Thread → Shared → Option (List Op × Shared)

/-- The code that each thread has left, what they share, and what has been executed. -/
structure Config where
  code : Thread → List Op
  shared : Shared
  /-- The operations that have been executed, in order. -/
  history : List (Thread × Op)

/-- A thread executes its next operation or is interrupted. -/
inductive Label
  | execute (t : Thread)
  | interrupt (t : Thread)

end Model

variable {Thread Op Shared : Type} [DecidableEq Thread]

/-- One step; a thread without code, or whose operation cannot be executed, is blocked. -/
def step (semantics : Semantics Thread Op Shared) (s : Config Thread Op Shared) :
    Label Thread → Except Blocked (Config Thread Op Shared)
  | .execute t =>
      match s.code t with
      | [] => .error .blocked
      | op :: rest =>
          match semantics.execute t op s.shared with
          | none => .error .blocked
          | some (ops, shared) => .ok {
              code := Function.update s.code t (ops ++ rest)
              shared := shared
              history := s.history ++ [(t, op)] }
  | .interrupt t =>
      match semantics.interrupt t s.shared with
      | none => .error .blocked
      | some (ops, shared) => .ok { s with
          code := Function.update s.code t (ops ++ s.code t)
          shared := shared }

/-- What each step does, and when it can be made. -/
inductive Steps (semantics : Semantics Thread Op Shared) (s : Config Thread Op Shared) :
    Label Thread → Config Thread Op Shared → Prop
  | execute {t : Thread} {op : Op} {rest ops : List Op} {shared : Shared}
      (hcode : s.code t = op :: rest)
      (heffect : semantics.execute t op s.shared = some (ops, shared)) :
      Steps semantics s (.execute t) {
        code := Function.update s.code t (ops ++ rest)
        shared := shared
        history := s.history ++ [(t, op)] }
  | interrupt {t : Thread} {ops : List Op} {shared : Shared}
      (heffect : semantics.interrupt t s.shared = some (ops, shared)) :
      Steps semantics s (.interrupt t) { s with
        code := Function.update s.code t (ops ++ s.code t)
        shared := shared }

variable {semantics : Semantics Thread Op Shared} {s s' : Config Thread Op Shared}
  {label : Label Thread}

/-- The step function takes steps of the relation. -/
theorem steps_of_step (h : step semantics s label = .ok s') : Steps semantics s label s' := by
  cases label with
  | execute t =>
      simp only [step] at h
      split at h
      · cases h
      · rename_i hcode
        split at h
        · cases h
        · rename_i heffect
          cases h
          exact .execute hcode heffect
  | interrupt t =>
      simp only [step] at h
      split at h
      · cases h
      · rename_i heffect
        cases h
        exact .interrupt heffect

/-- The state after the next operation of a thread. -/
def Config.afterExecute (s : Config Thread Op Shared) (t : Thread) (op : Op) (ops rest : List Op)
    (shared : Shared) : Config Thread Op Shared where
  code := Function.update s.code t (ops ++ rest)
  shared := shared
  history := s.history ++ [(t, op)]

/-- The state after a thread has been interrupted. -/
def Config.afterInterrupt (s : Config Thread Op Shared) (t : Thread) (ops : List Op)
    (shared : Shared) : Config Thread Op Shared :=
  { s with
    code := Function.update s.code t (ops ++ s.code t)
    shared := shared }

/-- The step of a thread whose next operation can be executed. -/
theorem step_execute {t : Thread} {op : Op} {ops rest : List Op} {shared : Shared}
    (hcode : s.code t = op :: rest) (heffect : semantics.execute t op s.shared = some (ops, shared)) :
    step semantics s (.execute t) = .ok (s.afterExecute t op ops rest shared) := by
  simp only [step, hcode, heffect]
  rfl

/-- The operations a thread starts with. -/
def start (code : Thread → List Op) (shared : Shared) : Config Thread Op Shared where
  code := code
  shared := shared
  history := []

section Runs

variable {code : Thread → List Op} {shared : Shared} {labels : List (Label Thread)}

/-- What holds at the start and is kept by all steps from states with these properties. -/
theorem Run.keeps {P : Config Thread Op Shared → Prop} (hstart : P (start code shared))
    (hstep : ∀ s label s', P s → Steps semantics s label s' → P s')
    (hrun : Run (step semantics) (start code shared) labels s) : P s := by
  induction hrun with
  | start => exact hstart
  | next _ hlast ih => exact hstep _ _ _ ih (steps_of_step hlast)

/-- A thread that makes no step still has all of its program. -/
theorem Run.code_eq {t : Thread} (hexecute : .execute t ∉ labels) (hinterrupt : .interrupt t ∉ labels)
    (hrun : Run (step semantics) (start code shared) labels s) : s.code t = code t := by
  induction hrun with
  | start => rfl
  | next _ hlast ih =>
      rw [List.mem_append, not_or] at hexecute hinterrupt
      have hbefore := ih hexecute.1 hinterrupt.1
      cases steps_of_step hlast with
      | execute _ _ =>
          have hne : t ≠ _ := fun hsame => hexecute.2 (hsame ▸ List.mem_singleton_self _)
          simpa only [Function.update_of_ne hne] using hbefore
      | interrupt _ =>
          have hne : t ≠ _ := fun hsame => hinterrupt.2 (hsame ▸ List.mem_singleton_self _)
          simpa only [Function.update_of_ne hne] using hbefore

/-! ## The order of the program -/

/-- The thread does not come to operations of this kind other than by its own program. -/
structure Semantics.Own (semantics : Semantics Thread Op Shared) (t : Thread)
    (own : Op → Bool) : Prop where
  execute : ∀ {op shared ops shared'},
    semantics.execute t op shared = some (ops, shared') → ∀ o ∈ ops, own o = false
  interrupt : ∀ {shared ops shared'},
    semantics.interrupt t shared = some (ops, shared') → ∀ o ∈ ops, own o = false

omit [DecidableEq Thread] in
/-- Operations of one kind or the other. -/
theorem Semantics.Own.or {t : Thread} {own own' : Op → Bool} (h : semantics.Own t own)
    (h' : semantics.Own t own') : semantics.Own t (fun op => own op || own' op) where
  execute heffect o ho := by simp [h.execute heffect o ho, h'.execute heffect o ho]
  interrupt heffect o ho := by simp [h.interrupt heffect o ho, h'.interrupt heffect o ho]

/-- What the thread has executed. -/
def Config.executed (s : Config Thread Op Shared) (t : Thread) : List Op :=
  s.history.filterMap fun entry => if entry.1 = t then some entry.2 else none

/-- What a thread has executed is in the history. -/
theorem mem_executed_iff {t : Thread} {op : Op} : op ∈ s.executed t ↔ (t, op) ∈ s.history := by
  constructor
  · intro h
    rcases List.mem_filterMap.mp h with ⟨⟨u, o⟩, hentry, heq⟩
    split at heq
    · rename_i hthread
      cases hthread
      cases heq
      exact hentry
    · cases heq
  · intro h
    exact List.mem_filterMap.mpr ⟨_, h, if_pos rfl⟩

/-- What only one thread executes is in the history as this thread has executed it. -/
theorem filterMap_history {β : Type} {t : Thread} {f : Op → Option β}
    (h : ∀ u op, (u, op) ∈ s.history → u ≠ t → f op = none) :
    s.history.filterMap (fun entry => f entry.2) = (s.executed t).filterMap f := by
  rw [Config.executed, List.filterMap_filterMap]
  refine List.filterMap_congr fun entry hentry => ?_
  by_cases hthread : entry.1 = t
  · simp [hthread]
  · simp [hthread, h entry.1 entry.2 hentry hthread]

variable {t : Thread} {own : Op → Bool}

/-- Operations of another kind in front are left out. -/
theorem filter_append_of_not_own {ops : List Op} (h : ∀ o ∈ ops, own o = false)
    (rest : List Op) :
    (ops ++ rest).filter own = rest.filter own := by
  have hnone : ops.filter own = [] := List.filter_eq_nil_iff.mpr fun o ho => by simp [h o ho]
  rw [List.filter_append, hnone, List.nil_append]

/-- What has been executed and what is still to be executed make up the program. -/
theorem Run.trace_eq (hown : semantics.Own t own)
    (hrun : Run (step semantics) (start code shared) labels s) :
    (s.executed t).filter own ++ (s.code t).filter own = (code t).filter own := by
  refine Run.keeps (P := fun s => (s.executed t).filter own ++ (s.code t).filter own =
    (code t).filter own) rfl ?_ hrun
  intro s label s' h hstep
  rw [← h]
  cases hstep with
  | @execute u op rest ops _ hcode heffect =>
      by_cases hthread : u = t
      · subst hthread
        have hnot := filter_append_of_not_own (hown.execute heffect) rest
        simp [Config.executed, hcode, hnot, List.filter_cons]
        split <;> simp
      · simp [Config.executed, Function.update_of_ne (Ne.symm hthread), hthread]
  | @interrupt u ops _ heffect =>
      by_cases hthread : u = t
      · subst hthread
        have hnot := filter_append_of_not_own (hown.interrupt heffect) (s.code u)
        simp [Config.executed, hnot]
      · simp [Config.executed, Function.update_of_ne (Ne.symm hthread)]

/-- What a thread executes itself, it has executed in the order of its program. -/
theorem Run.executed_prefix (hown : semantics.Own t own)
    (hrun : Run (step semantics) (start code shared) labels s) :
    (s.executed t).filter own <+: (code t).filter own :=
  ⟨_, Run.trace_eq hown hrun⟩

/-- A thread whose program does not have operations of its own does not execute any. -/
theorem Run.not_own_of_mem (hown : semantics.Own t own) (hprogram : (code t).filter own = [])
    (hrun : Run (step semantics) (start code shared) labels s) {op : Op}
    (hop : (t, op) ∈ s.history) : own op = false := by
  have htrace := Run.trace_eq hown hrun
  rw [hprogram, List.append_eq_nil_iff, List.filter_eq_nil_iff] at htrace
  exact Bool.eq_false_iff.mpr (htrace.1 op (mem_executed_iff.mpr hop))

/-- A thread that has nothing left to execute has executed its program. -/
theorem Run.executed_of_code_eq_nil (hown : semantics.Own t own)
    (hrun : Run (step semantics) (start code shared) labels s) (hcode : s.code t = []) :
    (s.executed t).filter own = (code t).filter own := by
  have htrace := Run.trace_eq hown hrun
  rwa [hcode, List.filter_nil, List.append_nil] at htrace

/-- When the next operation is one that the program has once, what has been executed is what the
program has before it. -/
theorem Run.executed_eq (hown : semantics.Own t own) {op : Op} {front rest later : List Op}
    (hop : own op = true) (hfront : op ∉ front) (hlater : op ∉ later)
    (hprogram : (code t).filter own = front ++ op :: later)
    (hrun : Run (step semantics) (start code shared) labels s) (hcode : s.code t = op :: rest) :
    (s.executed t).filter own = front := by
  have htrace := Run.trace_eq hown hrun
  rw [hcode, List.filter_cons_of_pos hop, hprogram] at htrace
  have hsymm := htrace.symm
  rw [List.append_cons_inj_of_notMem hfront hlater] at hsymm
  exact hsymm.1.symm

/-- An order that holds whenever an operation is executed. -/
theorem Run.happensBefore {x y : Thread × Op}
    (hnext : ∀ labels s rest result, Run (step semantics) (start code shared) labels s →
      s.code y.1 = y.2 :: rest → semantics.execute y.1 y.2 s.shared = some result →
        x ∈ s.history)
    (hrun : Run (step semantics) (start code shared) labels s) :
    HappensBefore s.history x y := by
  induction hrun with
  | start => exact happensBefore_nil x y
  | next hfront hlast ih =>
      cases steps_of_step hlast with
      | execute hcode heffect =>
          refine happensBefore_append_singleton.mpr ⟨ih, ?_⟩
          rintro rfl
          exact hnext _ _ _ _ hfront hcode heffect
      | interrupt _ => exact ih

/-- What the program has before the next operation has been executed. -/
theorem Run.mem_history_of_code (hown : semantics.Own t own) {x y : Op} (hy : own y = true)
    (horder : HappensBefore ((code t).filter own) x y)
    (hrun : Run (step semantics) (start code shared) labels s) {rest : List Op}
    (hcode : s.code t = y :: rest) : (t, x) ∈ s.history := by
  have htrace := Run.trace_eq hown hrun
  rw [hcode, List.filter_cons_of_pos hy] at htrace
  exact mem_executed_iff.mp ((List.mem_filter.mp (horder _ _ htrace.symm)).1)

/-- What is ordered in the program of a thread is ordered in every history. -/
theorem Run.programOrder (hown : semantics.Own t own) {x y : Op} (hy : own y = true)
    (horder : HappensBefore ((code t).filter own) x y)
    (hrun : Run (step semantics) (start code shared) labels s) :
    HappensBefore s.history (t, x) (t, y) := by
  refine Run.happensBefore ?_ hrun
  intro labels s rest _ hrun hcode _
  exact Run.mem_history_of_code hown hy horder hrun hcode

end Runs

/-! ## What is executed -/

section Permitted

variable {code : Thread → List Op} {shared : Shared} {labels : List (Label Thread)}

/-- The operations that each thread may have to execute, and what is kept by them. -/
structure Semantics.Permits (semantics : Semantics Thread Op Shared)
    (inv : Config Thread Op Shared → Prop)
    (permitted : Config Thread Op Shared → Thread → Op → Prop) : Prop where
  later : ∀ {s label s' t op}, inv s → Steps semantics s label s' →
    permitted s t op → permitted s' t op
  execute : ∀ {s t op rest ops shared'}, inv s → s.code t = op :: rest → permitted s t op →
    semantics.execute t op s.shared = some (ops, shared') →
      inv (s.afterExecute t op ops rest shared') ∧
        ∀ o ∈ ops, permitted (s.afterExecute t op ops rest shared') t o
  interrupt : ∀ {s t ops shared'}, inv s → semantics.interrupt t s.shared = some (ops, shared') →
    inv (s.afterInterrupt t ops shared') ∧
      ∀ o ∈ ops, permitted (s.afterInterrupt t ops shared') t o

/-- What holds of all code after the code of one thread was replaced. -/
theorem forall_mem_update {permitted : Thread → Op → Prop} {u : Thread} {ops : List Op}
    (hcode : ∀ t, ∀ op ∈ code t, permitted t op) (hops : ∀ op ∈ ops, permitted u op) :
    ∀ t, ∀ op ∈ Function.update code u ops t, permitted t op := by
  intro t op hop
  by_cases hthread : t = u
  · subst hthread
    rw [Function.update_self] at hop
    exact hops op hop
  · rw [Function.update_of_ne hthread] at hop
    exact hcode t op hop

/-- What all operations that may have to be executed have in common. -/
theorem Run.permitted {inv : Config Thread Op Shared → Prop}
    {permitted : Config Thread Op Shared → Thread → Op → Prop}
    (hpermits : semantics.Permits inv permitted) (hinv : inv (start code shared))
    (hcode : ∀ t, ∀ op ∈ code t, permitted (start code shared) t op)
    (hrun : Run (step semantics) (start code shared) labels s) :
    inv s ∧ ∀ t, ∀ op ∈ s.code t, permitted s t op := by
  refine Run.keeps (P := fun s => inv s ∧ ∀ t, ∀ op ∈ s.code t, permitted s t op)
    ⟨hinv, hcode⟩ ?_ hrun
  rintro s label s' ⟨hs, hpending⟩ hstep
  have hlater : ∀ t, ∀ o ∈ s.code t, permitted s' t o :=
    fun t o ho => hpermits.later hs hstep (hpending t o ho)
  cases hstep with
  | @execute u op rest ops _ hop heffect =>
      have hhead : permitted s u op := hpending u op (by simp [hop])
      rcases hpermits.execute hs hop hhead heffect with ⟨hs', hops⟩
      refine ⟨hs', forall_mem_update hlater ?_⟩
      intro o ho
      rcases List.mem_append.mp ho with ho | ho
      · exact hops o ho
      · exact hlater u o (by simp [hop, ho])
  | @interrupt u ops _ heffect =>
      rcases hpermits.interrupt hs heffect with ⟨hs', hops⟩
      refine ⟨hs', forall_mem_update hlater ?_⟩
      intro o ho
      rcases List.mem_append.mp ho with ho | ho
      · exact hops o ho
      · exact hlater u o ho

end Permitted

/-! ## What some operations are behind -/

section Guarded

/-- The operations that have not been released have one that guards them somewhere before. -/
def Guarded (guards : Op → Op → Prop) (released : Op → Prop) (ops : List Op) : Prop :=
  ∀ before op after, ops = before ++ op :: after → released op ∨ ∃ g ∈ before, guards g op

variable {guards : Op → Op → Prop} {released released' : Op → Prop} {op : Op} {ops rest : List Op}

/-- The first operation has been released. -/
theorem Guarded.head (h : Guarded guards released (op :: rest)) : released op := by
  rcases h [] op rest rfl with hreleased | ⟨g, hg, _⟩
  · exact hreleased
  · cases hg

/-- More may have been released. -/
theorem Guarded.mono (h : Guarded guards released ops)
    (hlater : ∀ op, released op → released' op) : Guarded guards released' ops := by
  intro before op after hsplit
  exact (h before op after hsplit).imp_left (hlater op)

/-- If all operations have been released, nothing has to be guarded. -/
theorem guarded_of_forall (h : ∀ op ∈ ops, released op) : Guarded guards released ops := by
  rintro before op after rfl
  exact Or.inl (h op (List.mem_append_right _ List.mem_cons_self))

/-- Code behind other code may be guarded by it. -/
theorem Guarded.append (hops : Guarded guards released ops)
    (hrest : ∀ before op after, rest = before ++ op :: after →
      released op ∨ ∃ g ∈ ops ++ before, guards g op) :
    Guarded guards released (ops ++ rest) := by
  intro before op after hsplit
  rcases List.append_eq_append_iff.mp hsplit with ⟨more, rfl, hmore⟩ | ⟨more, rfl, hmore⟩
  · exact hrest more op after hmore
  · cases more with
    | nil => simpa using hrest [] op after hmore.symm
    | cons first more =>
        rcases List.cons.inj hmore with ⟨rfl, _⟩
        exact hops before op more rfl

/-- Operations that are put in front do not change what the others are behind. -/
theorem Guarded.interrupt (h : Guarded guards released rest) (hops : Guarded guards released ops) :
    Guarded guards released (ops ++ rest) := by
  refine hops.append fun before op after hsplit => ?_
  rcases h before op after hsplit with hreleased | ⟨g, hg, hguards⟩
  · exact Or.inl hreleased
  · exact Or.inr ⟨g, List.mem_append_right _ hg, hguards⟩

/-- The operations that a guard comes down to guard what it has guarded and does not release. -/
theorem Guarded.execute (h : Guarded guards released (op :: rest))
    (hlater : ∀ o, released o → released' o) (hops : Guarded guards released' ops)
    (hguards : ∀ o, guards op o → released' o ∨ ∃ g ∈ ops, guards g o) :
    Guarded guards released' (ops ++ rest) := by
  refine hops.append fun before o after hsplit => ?_
  rcases h (op :: before) o after (by simp [hsplit]) with hreleased | ⟨g, hg, hguard⟩
  · exact Or.inl (hlater o hreleased)
  · rcases List.mem_cons.mp hg with rfl | hg
    · rcases hguards o hguard with hreleased | ⟨g', hg', hguard'⟩
      · exact Or.inl hreleased
      · exact Or.inr ⟨g', List.mem_append_left _ hg', hguard'⟩
    · exact Or.inr ⟨g, List.mem_append_right _ hg, hguard⟩

variable {code : Thread → List Op} {shared : Shared} {labels : List (Label Thread)}

/-- A thread comes down to operations that are behind the guards, and what has been released stays
so. -/
structure Semantics.Protects (semantics : Semantics Thread Op Shared) (t : Thread)
    (inv : Config Thread Op Shared → Prop) (guards : Op → Op → Prop)
    (released : Config Thread Op Shared → Op → Prop) : Prop where
  later : ∀ {s label s'}, inv s → Steps semantics s label s' → ∀ op, released s op → released s' op
  execute : ∀ {s op rest ops shared'}, inv s → s.code t = op :: rest →
    semantics.execute t op s.shared = some (ops, shared') →
      Guarded guards (released (s.afterExecute t op ops rest shared')) ops ∧
        ∀ o, guards op o →
          released (s.afterExecute t op ops rest shared') o ∨ ∃ g ∈ ops, guards g o
  interrupt : ∀ {s ops shared'}, inv s → semantics.interrupt t s.shared = some (ops, shared') →
    Guarded guards (released (s.afterInterrupt t ops shared')) ops

/-- What the program has behind guards stays behind them until it is released. -/
theorem Run.guarded {t : Thread} {inv : Config Thread Op Shared → Prop}
    {guards : Op → Op → Prop} {released : Config Thread Op Shared → Op → Prop}
    (hprotects : semantics.Protects t inv guards released)
    (hinv : ∀ labels s, Run (step semantics) (start code shared) labels s → inv s)
    (hcode : Guarded guards (released (start code shared)) (code t))
    (hrun : Run (step semantics) (start code shared) labels s) :
    Guarded guards (released s) (s.code t) := by
  induction hrun with
  | start => exact hcode
  | @next labels s label s' hfront hlast ih =>
      have hs := hinv _ _ hfront
      have hstep := steps_of_step hlast
      have hlater := hprotects.later hs hstep
      cases hstep with
      | @execute u op rest ops _ hop heffect =>
          by_cases hthread : t = u
          · subst hthread
            rw [hop] at ih
            rcases hprotects.execute hs hop heffect with ⟨hops, hguards⟩
            simp only [Function.update_self]
            exact ih.execute hlater hops hguards
          · simp only [Function.update_of_ne hthread]
            exact ih.mono hlater
      | @interrupt u ops _ heffect =>
          by_cases hthread : t = u
          · subst hthread
            simp only [Function.update_self]
            exact (ih.mono hlater).interrupt (hprotects.interrupt hs heffect)
          · simp only [Function.update_of_ne hthread]
            exact ih.mono hlater

/-- What a thread has executed has been released. -/
theorem Run.released_of_mem {t : Thread} {inv : Config Thread Op Shared → Prop}
    {guards : Op → Op → Prop} {released : Config Thread Op Shared → Op → Prop}
    (hprotects : semantics.Protects t inv guards released)
    (hinv : ∀ labels s, Run (step semantics) (start code shared) labels s → inv s)
    (hcode : Guarded guards (released (start code shared)) (code t))
    (hrun : Run (step semantics) (start code shared) labels s) {op : Op}
    (hop : (t, op) ∈ s.history) : released s op := by
  induction hrun with
  | start => cases hop
  | next hfront hlast ih =>
      have hstep := steps_of_step hlast
      have hlater := hprotects.later (hinv _ _ hfront) hstep op
      have hguarded := Run.guarded hprotects hinv hcode hfront
      cases hstep with
      | execute hnext _ =>
          rcases List.mem_append.mp hop with hold | hnew
          · exact hlater (ih hold)
          · cases List.mem_singleton.mp hnew
            rw [hnext] at hguarded
            exact hlater hguarded.head
      | interrupt _ => exact hlater (ih hop)

end Guarded

end Threads
end Roofline
