import Chiptune.CommandLine.Run
import Mathlib

/-!
# Running programs

What a program does to the tree it starts from, as a postcondition for the value it ends with and
another one for the reason it stops for, with a rule for each way to build a program.
-/

namespace Chiptune.CommandLine

open Text (Points)

/-- The console refuses a line with this error after the lines that are printed. -/
def Console.Refuses (console : Console) (printed : List Points) (error : Error) : Prop :=
  ∃ line, console printed line = some error

section

variable {α : Type} (console : Console) (p : Program α) (tree : FileTree)

/-- From a tree the program ends with a value and a tree, or stops and leaves a world, as said. -/
def Runs (ok : α → FileTree → Prop) (failed : Stop → World → Prop) : Prop :=
  ∀ world : World, world.tree = tree →
    match ((p.run console).run world : Except Stop α × World) with
    | (.ok a, after) => ok a after.tree
    | (.error stop, after) => failed stop after

/-- The program only looks at the tree, and stops with no success. -/
def Reads (value : α → Prop) : Prop :=
  Runs console p tree (fun a after => after = tree ∧ value a)
    fun stop after => after.tree = tree ∧ stop ≠ .exit 0

/-- The program only looks at the tree, and stops for nothing but a line that is refused. -/
def Prints (value : α → Prop) : Prop :=
  Runs console p tree (fun a after => after = tree ∧ value a)
    fun stop after => after.tree = tree ∧
      ∃ error, stop = .crash error ∧ console.Refuses after.printed error

/-- The program only looks at the tree and does not stop. -/
def Passes (value : α → Prop) : Prop :=
  Runs console p tree (fun a after => after = tree ∧ value a) fun _ _ => False

end

section Rules

variable {α β : Type} {console : Console} {p : Program α} {f : α → Program β} {tree : FileTree}
  {ok : β → FileTree → Prop} {mid : α → FileTree → Prop} {failed : Stop → World → Prop}
  {value : α → Prop}

lemma runs_pure {b : β} (h : ok b tree) : Runs console (pure b) tree ok failed := by
  rintro world rfl
  exact h

lemma runs_throw {stop : Stop} (h : ∀ world, world.tree = tree → failed stop world) :
    Runs console (throw stop : Program β) tree ok failed :=
  h

lemma Runs.bind (hp : Runs console p tree mid failed)
    (hf : ∀ a after, mid a after → Runs console (f a) after ok failed) :
    Runs console (p >>= f) tree ok failed := by
  intro world hworld
  have h := hp world hworld
  have hrun : (((p >>= f).run console).run world : Except Stop β × World) =
      match ((p.run console).run world : Except Stop α × World) with
      | (.ok a, after) => ((f a).run console).run after
      | (.error stop, after) => (.error stop, after) := by
    show (ExceptT.bindCont (fun a => (f a).run console) ((p.run console).run world).1
      ((p.run console).run world).2 : Except Stop β × World) = _
    rcases ((p.run console).run world : Except Stop α × World) with ⟨_ | _, after⟩ <;> rfl
  rw [hrun]
  rcases hres : ((p.run console).run world : Except Stop α × World) with ⟨stop | a, after⟩
  · rw [hres] at h
    exact h
  · rw [hres] at h
    exact hf a after.tree h after rfl

lemma Runs.mono {failing : Stop → World → Prop} {okay : β → FileTree → Prop}
    {q : Program β} (h : Runs console q tree okay failing)
    (hok : ∀ b after, okay b after → ok b after)
    (hfailed : ∀ stop after, failing stop after → failed stop after) :
    Runs console q tree ok failed := by
  intro world hworld
  have hends := h world hworld
  rcases hres : ((q.run console).run world : Except Stop β × World) with ⟨stop | b, after⟩
  · rw [hres] at hends
    exact hfailed stop _ hends
  · rw [hres] at hends
    exact hok b _ hends

lemma Runs.ite_bind {c : Prop} [Decidable c] {q : Program α}
    (h : Runs console (if c then p else q) tree mid failed)
    (hf : ∀ a after, mid a after → Runs console (f a) after ok failed) :
    Runs console (if c then p >>= f else q >>= f) tree ok failed := by
  by_cases hc : c
  · rw [if_pos hc] at h ⊢
    exact h.bind hf
  · rw [if_neg hc] at h ⊢
    exact h.bind hf

/-- What a program does after it has only looked at the tree. -/
lemma Reads.then (hp : Reads console p tree value)
    (hfailed : ∀ stop world, world.tree = tree → stop ≠ .exit 0 → failed stop world)
    (hf : ∀ a, value a → Runs console (f a) tree ok failed) :
    Runs console (p >>= f) tree ok failed := by
  refine Runs.bind (Runs.mono hp (fun _ _ h => h) ?_) ?_
  · rintro stop world ⟨hworld, hstop⟩
    exact hfailed stop world hworld hstop
  · rintro a _ ⟨rfl, ha⟩
    exact hf a ha

lemma Reads.bind {result : β → Prop} (hp : Reads console p tree value)
    (hf : ∀ a, value a → Reads console (f a) tree result) : Reads console (p >>= f) tree result :=
  hp.then (fun _ _ hworld hstop => ⟨hworld, hstop⟩) hf

lemma Prints.then (hp : Prints console p tree value)
    (hfailed : ∀ error world, world.tree = tree → console.Refuses world.printed error →
      failed (.crash error) world)
    (hf : ∀ a, value a → Runs console (f a) tree ok failed) :
    Runs console (p >>= f) tree ok failed := by
  refine Runs.bind (Runs.mono hp (fun _ _ h => h) ?_) ?_
  · rintro _ world ⟨hworld, error, rfl, hrefused⟩
    exact hfailed error world hworld hrefused
  · rintro a _ ⟨rfl, ha⟩
    exact hf a ha

lemma Prints.reads (hp : Prints console p tree value) : Reads console p tree value := by
  refine Runs.mono hp (fun _ _ h => h) ?_
  rintro _ _ ⟨hworld, error, rfl, -⟩
  exact ⟨hworld, nofun⟩

lemma Passes.then (hp : Passes console p tree value)
    (hf : ∀ a, value a → Runs console (f a) tree ok failed) :
    Runs console (p >>= f) tree ok failed := by
  refine Runs.bind (Runs.mono hp (fun _ _ h => h) fun _ _ h => h.elim) ?_
  rintro a _ ⟨rfl, ha⟩
  exact hf a ha

lemma reads_pure {a : α} (h : value a) : Reads console (pure a) tree value := runs_pure ⟨rfl, h⟩

lemma passes_get : Passes console (get : Program World) tree fun world => world.tree = tree := by
  rintro world rfl
  exact ⟨rfl, rfl⟩

lemma prints_print {line : Points} : Prints console (print line) tree fun _ => True := by
  rintro world rfl
  have hrun : (((print line).run console).run world : Except Stop Unit × World) =
      ((answered line (console world.printed line)).run console).run world := rfl
  rw [hrun]
  cases hline : console world.printed line with
  | none => exact ⟨rfl, trivial⟩
  | some error => exact ⟨rfl, error, rfl, line, hline⟩

lemma reads_crash {error : Error} : Reads console (throw (.crash error) : Program α) tree value :=
  runs_throw fun _ hworld => ⟨hworld, fun h => nomatch h⟩

lemma reads_complain {code : Nat} {text : Points} (hcode : code ≠ 0) :
    Reads console (complain code text : Program α) tree value :=
  prints_print.reads.bind fun _ _ =>
    runs_throw fun _ hworld => ⟨hworld, fun h => hcode (Stop.exit.inj h)⟩

lemma reads_need {handled : Error → Option Nat} {result : Outcome α}
    (h : ∀ error, handled error ≠ some 0) :
    Reads console (need handled result) tree fun a => result = .ok a := by
  unfold need
  cases result with
  | ok a => exact reads_pure rfl
  | error error =>
    dsimp only
    cases hcode : handled error with
    | none => exact reads_crash
    | some code =>
      apply reads_complain
      rintro rfl
      exact h error hcode

lemma reads_known {a? : Option α} : Reads console (known a?) tree fun a => a? = some a := by
  cases a? with
  | none => exact reads_crash
  | some a => exact reads_pure rfl

lemma reads_chosen {a? : Option α} : Reads console (chosen a?) tree fun a => a? = some a := by
  cases a? with
  | none => exact reads_crash
  | some a => exact reads_pure rfl

lemma reads_demand {condition : Bool} {text : Points} :
    Reads console (demand condition text) tree fun _ => True := by
  unfold demand
  split
  · exact reads_pure trivial
  · exact reads_complain (by decide)

/-- A loop that only prints. -/
lemma prints_forIn {γ : Type} {xs : List γ} {body : γ → PUnit → Program (ForInStep PUnit)}
    (h : ∀ x, Prints console (body x PUnit.unit) tree (· = ForInStep.yield PUnit.unit)) :
    Prints console (forIn xs PUnit.unit body) tree fun _ => True := by
  induction xs with
  | nil => exact runs_pure ⟨rfl, trivial⟩
  | cons x rest ih =>
    rw [List.forIn_cons]
    refine (h x).then (fun error _ hworld hrefused => ⟨hworld, error, rfl, hrefused⟩) ?_
    rintro _ rfl
    exact ih

lemma prints_printEach {line : Points} : Prints console (do
    print line
    pure (ForInStep.yield PUnit.unit) : Program (ForInStep PUnit)) tree
      (· = ForInStep.yield PUnit.unit) :=
  prints_print.then (fun error _ hworld hrefused => ⟨hworld, error, rfl, hrefused⟩)
    fun _ _ => runs_pure ⟨rfl, rfl⟩

/-- What a program does after it has written a file. -/
lemma keep_then {written : Outcome FileTree} {g : Unit → Program β}
    (hfailed : ∀ error world, written = .error error → world.tree = tree →
      failed (.crash error) world)
    (hg : ∀ after, written = .ok after → Runs console (g ()) after ok failed) :
    Runs console (keep written >>= g) tree ok failed := by
  cases written with
  | ok after =>
    have hkeep : Runs console (keep (.ok after)) tree (fun _ kept => kept = after) failed :=
      fun _ _ => rfl
    apply hkeep.bind
    rintro _ _ rfl
    exact hg _ rfl
  | error error =>
    have hcrash : Runs console (keep (.error error)) tree (fun _ _ => False) failed :=
      fun world hworld => hfailed error world rfl hworld
    exact hcrash.bind fun _ _ h => h.elim

lemma write_then {path : Points} {content : Bytes} {g : Unit → Program β}
    (hfailed : ∀ error world, tree.write path content = .error error → world.tree = tree →
      failed (.crash error) world)
    (hg : ∀ after, tree.write path content = .ok after → Runs console (g ()) after ok failed) :
    Runs console (write path content >>= g) tree ok failed := by
  unfold write
  rw [bind_assoc]
  apply passes_get.then
  rintro world rfl
  exact keep_then hfailed hg

end Rules

end Chiptune.CommandLine
