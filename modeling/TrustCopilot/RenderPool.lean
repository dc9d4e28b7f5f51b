import TrustCopilot.PageFetches
import TrustCopilot.Library.Semaphores
import TrustCopilot.Library.Trace

/-! The pool of browser contexts in which pages are rendered. Any number of renderings are in hand;
they take turns where one of them waits for its slot or for the browser. -/
namespace TrustCopilot.RenderPool

open TrustCopilot.PageFetches
open TrustCopilot.Semaphores
open TrustCopilot.Trace

structure RenderResult where
  url : String
  html : Option String := none
  renderMs : ℕ := 0
  error : Option String := none
  renderMethod : String := "playwright"
  deriving DecidableEq, Repr

structure Render where
  call : ℕ
  url : String
  deriving DecidableEq, Repr

inductive Outcome where
  | answer (result : RenderResult)
  | raised (message : String)
  deriving DecidableEq, Repr

variable {β : Type*}

/-- The renderings past their semaphore stand where they wait for the browser: for a new context,
for their page, or for their context to close, with what they will answer. -/
structure PlaywrightPool (β : Type*) where
  browser : Option β := none
  semaphore : Semaphore Render
  opening : List Render := []
  rendering : List Render := []
  closing : List (Render × RenderResult) := []
  deriving DecidableEq, Repr

def PlaywrightPool.new (maxContexts : ℕ) : PlaywrightPool β := { semaphore := ⟨maxContexts, []⟩ }

inductive Step (β : Type*) where
  | launched (browser : β)
  | stopped
  | render (r : Render)
  | resumed (r : Render)
  | opened (r : Render)
  | notOpened (r : Render) (message : String)
  | loaded (r : Render) (html : String) (elapsedMs : ℕ)
  | failed (r : Render) (message : String)
  | closed (r : Render) (result : RenderResult)
  | notClosed (r : Render) (result : RenderResult) (message : String)
  deriving DecidableEq, Repr

def notStarted (r : Render) : RenderResult := { url := r.url, error := some "pool_not_started" }

def pageResult (r : Render) (html : String) (elapsedMs : ℕ) : RenderResult :=
  { url := r.url, html := some html, renderMs := elapsedMs }

def errorResult (r : Render) (message : String) : RenderResult :=
  { url := r.url, error := some (raisedText message) }

def render (s : PlaywrightPool β) (r : Render) : PlaywrightPool β :=
  match s.browser with
  | none => s
  | some _ =>
    match acquire s.semaphore r with
    | (true, semaphore) => { s with semaphore := semaphore, opening := s.opening ++ [r] }
    | (false, semaphore) => { s with semaphore := semaphore }

/-- `stop` closes the browser and leaves the pool its handle. -/
def next (s : PlaywrightPool β) : Step β → PlaywrightPool β
  | .launched browser => { s with browser := some browser }
  | .stopped => s
  | .render r => render s r
  | .resumed r => { s with semaphore := resume s.semaphore r, opening := s.opening ++ [r] }
  | .opened r => { s with opening := s.opening.erase r, rendering := s.rendering ++ [r] }
  | .notOpened r _ =>
    { s with opening := s.opening.erase r, semaphore := release s.semaphore }
  | .loaded r html elapsedMs =>
    { s with
      rendering := s.rendering.erase r
      closing := s.closing ++ [(r, pageResult r html elapsedMs)] }
  | .failed r message =>
    { s with
      rendering := s.rendering.erase r
      closing := s.closing ++ [(r, errorResult r message)] }
  | .closed r result | .notClosed r result _ =>
    { s with closing := s.closing.erase (r, result), semaphore := release s.semaphore }

/-- A step is one of a rendering that waits there. -/
def Enabled (s : PlaywrightPool β) : Step β → Prop
  | .launched _ | .stopped | .render _ => True
  | .resumed r => ⟨r, true⟩ ∈ s.semaphore.waiters
  | .opened r | .notOpened r _ => r ∈ s.opening
  | .loaded r _ _ | .failed r _ => r ∈ s.rendering
  | .closed r result | .notClosed r result _ => (r, result) ∈ s.closing

instance (s : PlaywrightPool β) (e : Step β) : Decidable (Enabled s e) := by
  cases e <;> simp only [Enabled] <;> infer_instance

def outcomes (s : PlaywrightPool β) : Step β → List (Render × Outcome)
  | .render r =>
    match s.browser with
    | none => [(r, .answer (notStarted r))]
    | some _ => []
  | .notOpened r message | .notClosed r _ message => [(r, .raised message)]
  | .closed r result => [(r, .answer result)]
  | _ => []

def run (maxContexts : ℕ) (steps : List (Step β)) : PlaywrightPool β :=
  runTrace next (.new maxContexts) steps

def ended (maxContexts : ℕ) (steps : List (Step β)) : List (Render × Outcome) :=
  emitted outcomes next (.new maxContexts) steps

/-! ### What is in hand -/

def begun (steps : List (Step β)) : List Render :=
  steps.filterMap fun
    | .render r => some r
    | _ => none

def contextsOpened (steps : List (Step β)) : List Render :=
  steps.filterMap fun
    | .opened r => some r
    | _ => none

/-- The renderings whose context was told to close, whether it did or raised. -/
def contextsClosed (steps : List (Step β)) : List Render :=
  steps.filterMap fun
    | .closed r _ | .notClosed r _ _ => some r
    | _ => none

def inContext (s : PlaywrightPool β) : List Render := s.rendering ++ s.closing.map Prod.fst

def inHand (s : PlaywrightPool β) : List Render :=
  s.semaphore.waiters.map Waiter.who ++ (s.opening ++ inContext s)

def holding (s : PlaywrightPool β) : ℕ :=
  s.opening.length + s.rendering.length + s.closing.length

def Answers (r : Render) (result : RenderResult) : Prop :=
  result.url = r.url ∧ result.renderMethod = "playwright" ∧
    (result.html.isSome ↔ result.error = none) ∧ ∀ e ∈ result.error, e.length ≤ 500

theorem count_map_erase {α κ : Type*} [BEq α] [LawfulBEq α] [DecidableEq κ] (f : α → κ) {a : α}
    {l : List α} (h : a ∈ l) (x : κ) :
    (l.map f).count x = [f a].count x + ((l.erase a).map f).count x := by
  rw [((List.perm_cons_erase h).map f).count_eq, List.map_cons, ← List.count_append]
  rfl

theorem count_erase {a : Render} {l : List Render} (h : a ∈ l) (x : Render) :
    l.count x = [a].count x + (l.erase a).count x := by
  have hmap := count_map_erase id h x
  rwa [List.map_id, List.map_id] at hmap

theorem render_cases (s : PlaywrightPool β) (r : Render) :
    s.browser = none ∧ render s r = s ∨ ∃ b, s.browser = some b ∧
      ((s.semaphore.value = 0 ∨ s.semaphore.waiters ≠ []) ∧ render s r =
        { s with semaphore :=
          { s.semaphore with waiters := s.semaphore.waiters ++ [⟨r, false⟩] } } ∨
      (0 < s.semaphore.value ∧ s.semaphore.waiters = []) ∧ render s r =
        { s with
          semaphore := { s.semaphore with value := s.semaphore.value - 1 }
          opening := s.opening ++ [r] }) := by
  cases hb : s.browser with
  | none => exact Or.inl ⟨rfl, by rw [render, hb]⟩
  | some b =>
    refine Or.inr ⟨b, rfl, ?_⟩
    rcases acquire_cases s.semaphore r with ⟨hcall, hlocked⟩ | ⟨hcall, hfree⟩
    · exact Or.inl ⟨hlocked, by rw [render, hb, hcall]⟩
    · exact Or.inr ⟨hfree, by rw [render, hb, hcall]⟩

theorem render_keeps (s : PlaywrightPool β) (r : Render) :
    (render s r).browser = s.browser ∧ (render s r).rendering = s.rendering ∧
      (render s r).closing = s.closing := by
  rcases render_cases s r with ⟨-, hs⟩ | ⟨b, -, ⟨-, hs⟩ | ⟨-, hs⟩⟩ <;> rw [hs] <;>
    exact ⟨rfl, rfl, rfl⟩

/-! ### Slots -/

theorem fair_render {n : ℕ} {s : PlaywrightPool β} (h : Fair n (holding s) s.semaphore)
    (r : Render) : Fair n (holding (render s r)) (render s r).semaphore := by
  rcases render_cases s r with ⟨-, hs⟩ | ⟨b, -, ⟨hlocked, hs⟩ | ⟨⟨hfree, hnone⟩, hs⟩⟩
  · rw [hs]
    exact h
  · rw [hs]
    exact fair_wait h hlocked r
  · have hheld : holding (render s r) = holding s + 1 := by
      simp only [hs, holding, List.length_append, List.length_singleton]
      omega
    rw [hheld, hs]
    exact fair_enter h hfree hnone

theorem fair_next {n : ℕ} {s : PlaywrightPool β} {e : Step β}
    (h : Fair n (holding s) s.semaphore) (he : Enabled s e) :
    Fair n (holding (next s e)) (next s e).semaphore := by
  cases e with
  | launched browser => exact h
  | stopped => exact h
  | render r => exact fair_render h r
  | resumed r =>
    have hheld : holding (next s (.resumed r)) = holding s + 1 := by
      simp only [holding, next, List.length_append, List.length_singleton]
      omega
    rw [hheld]
    exact fair_resume h he
  | opened r =>
    have hlen := List.length_erase_add_one he
    have hheld : holding (next s (.opened r)) = holding s := by
      simp only [holding, next, List.length_append, List.length_singleton]
      omega
    rw [hheld]
    exact h
  | notOpened r message =>
    have hlen := List.length_erase_add_one he
    refine fair_release ?_
    have hheld : holding (next s (.notOpened r message)) + 1 = holding s := by
      simp only [holding, next]
      omega
    rw [hheld]
    exact h
  | loaded r | failed r =>
    have hlen := List.length_erase_add_one he
    refine cast (congrArg (Fair n · s.semaphore) ?_) h
    simp only [holding, next, List.length_append, List.length_singleton]
    omega
  | closed r result | notClosed r result =>
    have hlen := List.length_erase_add_one he
    refine fair_release (cast (congrArg (Fair n · s.semaphore) ?_) h)
    simp only [holding, next]
    omega

/-- A rendering is let in at once only where nobody waits, and otherwise when it was woken. -/
theorem letIn_next {n : ℕ} {s : PlaywrightPool β} {e : Step β} {r : Render}
    (h : Fair n (holding s) s.semaphore) (he : Enabled s e)
    (hin : (next s e).opening = s.opening ++ [r]) :
    ∀ w ∈ ahead s.semaphore r, w.awake = true := by
  have hlen : (next s e).opening.length = s.opening.length + 1 := by
    rw [hin, List.length_append, List.length_singleton]
  cases e with
  | render r' =>
    rcases render_cases s r' with ⟨-, hs⟩ | ⟨b, -, ⟨-, hs⟩ | ⟨⟨-, hnone⟩, -⟩⟩
    · rw [next, hs] at hlen
      exact absurd hlen (Nat.ne_of_lt (Nat.lt_succ_self _))
    · rw [next, hs] at hlen
      exact absurd hlen (Nat.ne_of_lt (Nat.lt_succ_self _))
    · rw [ahead, hnone]
      exact fun w hw => absurd hw List.not_mem_nil
  | resumed r' =>
    have hr : [r'] = [r] := List.append_cancel_left hin
    rw [← List.singleton_inj.1 hr]
    exact ahead_awake h.order he
  | opened r' | notOpened r' message =>
    have hleft := List.length_erase_add_one he
    change (s.opening.erase r').length = s.opening.length + 1 at hlen
    omega
  | _ => exact absurd hlen (Nat.ne_of_lt (Nat.lt_succ_self _))

/-! ### Calls and contexts -/

theorem inHand_count (s : PlaywrightPool β) (x : Render) : (inHand s).count x =
    (s.semaphore.waiters.map Waiter.who).count x + (s.opening.count x +
      (s.rendering.count x + (s.closing.map Prod.fst).count x)) := by
  rw [inHand, inContext, List.count_append, List.count_append, List.count_append]

/-- A rendering in hand goes on to be in hand or comes to its end. -/
theorem calls_next {s : PlaywrightPool β} {e : Step β} (he : Enabled s e) (x : Render) :
    (begun [e]).count x + (inHand s).count x =
      ((outcomes s e).map Prod.fst).count x + (inHand (next s e)).count x := by
  rw [inHand_count, inHand_count]
  cases e with
  | launched browser => rfl
  | stopped => rfl
  | render r =>
    have hbegun : begun [Step.render (β := β) r] = [r] := rfl
    rw [hbegun, next]
    rcases render_cases s r with ⟨hb, hs⟩ | ⟨b, hb, ⟨-, hs⟩ | ⟨-, hs⟩⟩
    · rw [outcomes, hb, hs]
      rfl
    · rw [outcomes, hb, hs]
      simp only [List.map_append, List.map_cons, List.map_nil, List.count_append, List.count_nil]
      omega
    · rw [outcomes, hb, hs]
      simp only [List.map_nil, List.count_append, List.count_nil]
      omega
  | resumed r =>
    have hleft : _ = [r].count x + _ := count_map_erase Waiter.who he x
    simp only [next, who_resume, List.count_append]
    change 0 + _ = 0 + _
    omega
  | opened r =>
    have hleft := count_erase he x
    simp only [next, List.count_append]
    change 0 + _ = 0 + _
    omega
  | notOpened r message =>
    have hleft := count_erase he x
    simp only [next, who_release]
    change 0 + _ = [r].count x + _
    omega
  | loaded r | failed r =>
    have hleft := count_erase he x
    simp only [next, List.map_append, List.map_cons, List.map_nil, List.count_append]
    change 0 + _ = 0 + _
    omega
  | closed r result | notClosed r result =>
    have hleft : _ = [r].count x + _ := count_map_erase Prod.fst he x
    simp only [next, who_release]
    change 0 + _ = [r].count x + _
    omega

theorem contexts_next {s : PlaywrightPool β} {e : Step β} (he : Enabled s e) (x : Render) :
    (contextsOpened [e]).count x + (inContext s).count x =
      (contextsClosed [e]).count x + (inContext (next s e)).count x := by
  rw [inContext, inContext, List.count_append, List.count_append]
  cases e with
  | launched browser => rfl
  | stopped => rfl
  | render r =>
    obtain ⟨-, hrendering, hclosing⟩ := render_keeps s r
    rw [next, hrendering, hclosing]
    rfl
  | resumed r => rfl
  | opened r =>
    simp only [next, List.count_append]
    change [r].count x + _ = 0 + _
    omega
  | notOpened r message => rfl
  | loaded r | failed r =>
    have hleft := count_erase he x
    simp only [next, List.map_append, List.map_cons, List.map_nil, List.count_append]
    change 0 + _ = 0 + _
    omega
  | closed r result | notClosed r result =>
    have hleft : _ = [r].count x + _ := count_map_erase Prod.fst he x
    simp only [next]
    change 0 + _ = [r].count x + _
    omega

/-! ### Whole runs -/

/-- What a run keeps: the slots, the books on calls and on contexts, the handle of the browser. -/
structure Sound (n : ℕ) (steps : List (Step β)) (s : PlaywrightPool β) : Prop where
  fair : Fair n (holding s) s.semaphore
  calls : ∀ x, (begun steps).count x = ((ended n steps).map Prod.fst).count x + (inHand s).count x
  contexts : ∀ x, (contextsOpened steps).count x =
    (contextsClosed steps).count x + (inContext s).count x
  handle : s.browser = none → ∀ b, Step.launched b ∉ steps

theorem browser_next (s : PlaywrightPool β) (e : Step β) :
    (next s e).browser = s.browser ∨ ∃ b, e = .launched b ∧ (next s e).browser = some b := by
  cases e with
  | launched b => exact Or.inr ⟨b, rfl, rfl⟩
  | render r => exact Or.inl (render_keeps s r).1
  | _ => exact Or.inl rfl

theorem sound_concat {n : ℕ} {steps : List (Step β)} {e : Step β}
    (h : Sound n steps (run n steps)) (he : Enabled (run n steps) e) :
    Sound n (steps ++ [e]) (next (run n steps) e) := by
  refine ⟨fair_next h.fair he, fun x => ?_, fun x => ?_, ?_⟩
  · have hstep := calls_next he x
    have hbefore := h.calls x
    have hbegun : begun (steps ++ [e]) = begun steps ++ begun [e] := List.filterMap_append
    have hended : ended n (steps ++ [e]) = ended n steps ++ outcomes (run n steps) e :=
      emitted_concat _ _ _ _
    rw [hbegun, hended, List.map_append, List.count_append, List.count_append]
    omega
  · have hstep := contexts_next he x
    have hbefore := h.contexts x
    have hopened : contextsOpened (steps ++ [e]) = contextsOpened steps ++ contextsOpened [e] :=
      List.filterMap_append
    have hclosed : contextsClosed (steps ++ [e]) = contextsClosed steps ++ contextsClosed [e] :=
      List.filterMap_append
    rw [hopened, hclosed, List.count_append, List.count_append]
    omega
  · intro hnone b hb
    rcases browser_next (run n steps) e with hkept | ⟨b', -, hnew⟩
    · rw [hkept] at hnone
      rcases List.mem_append.1 hb with hold | hlast
      · exact h.handle hnone b hold
      · rw [← List.mem_singleton.1 hlast, next] at hkept
        rw [hnone] at hkept
        cases hkept
    · rw [hnew] at hnone
      cases hnone

theorem sound_run {n : ℕ} {steps : List (Step β)} (h : ValidTrace Enabled next (.new n) steps) :
    Sound n steps (run n steps) := by
  refine history_invariant (I := Sound n) ?_ (fun es e _ hs he => sound_concat hs he) h
  exact ⟨fair_new n, fun _ => rfl, fun _ => rfl, fun _ _ => List.not_mem_nil⟩

/-- However the renderings take turns and whatever raises: every slot is free, in use or handed to
one that has been woken and has yet to run, so no more contexts are open than there are slots; every
context that was opened is told to close or still in use; whoever is let in, those that have waited
longer have all been woken; and while somebody waits, all slots are in use unless one that was
woken has yet to run. -/
theorem slots_kept {n : ℕ} {steps : List (Step β)} (h : ValidTrace Enabled next (.new n) steps) :
    let s := run n steps
    s.semaphore.value + holding s + handed s.semaphore = n ∧
    (inContext s).length ≤ n ∧
    (contextsOpened steps).Perm (contextsClosed steps ++ inContext s) ∧
    (∀ before e rest r, steps = before ++ e :: rest →
      (next (run n before) e).opening = (run n before).opening ++ [r] →
        ∀ w ∈ ahead (run n before).semaphore r, w.awake = true) ∧
    (s.semaphore.waiters ≠ [] → holding s = n ∨ ∃ w ∈ s.semaphore.waiters, w.awake = true) := by
  intro s
  have hs : Sound n steps s := sound_run h
  have hslots := hs.fair.slots
  refine ⟨by omega, ?_, ?_, fun before e rest r hsteps => ?_, busy_of_waiting hs.fair⟩
  · rw [inContext, List.length_append, List.length_map]
    rw [holding] at hslots
    omega
  · refine List.perm_iff_count.2 fun x => ?_
    rw [List.count_append]
    exact hs.contexts x
  · rw [hsteps] at h
    have hbefore := validTrace_append.1 h
    exact letIn_next (sound_run hbefore.1).fair hbefore.2.1

/-- With one slot the second rendering waits for the first to close its context. -/
theorem slots_kept_one_slot :
    let a : Render := ⟨0, "https://a.com"⟩
    let b : Render := ⟨1, "https://b.com"⟩
    let steps : List (Step ℕ) := [.launched 0, .render a, .render b, .opened a, .failed a "timeout",
      .closed a (errorResult a "timeout"), .resumed b, .opened b]
    let s := run 1 steps
    s.semaphore.value + holding s + handed s.semaphore = 1 ∧ s.rendering = [b] ∧
    contextsClosed steps = [a] :=
  ⟨(slots_kept (by decide)).1, by decide, by decide⟩

/-! ### What is answered -/

theorem answers_notStarted (r : Render) : Answers r (notStarted r) := by
  refine ⟨rfl, rfl, by simp [notStarted], fun e he => ?_⟩
  cases he
  decide

theorem answers_pageResult (r : Render) (html : String) (elapsedMs : ℕ) :
    Answers r (pageResult r html elapsedMs) := by
  refine ⟨rfl, rfl, by simp [pageResult], fun e he => ?_⟩
  cases he

theorem answers_errorResult (r : Render) (message : String) :
    Answers r (errorResult r message) := by
  refine ⟨rfl, rfl, by simp [errorResult], fun e he => ?_⟩
  cases he
  simp [raisedText]

def Prepared (s : PlaywrightPool β) : Prop := ∀ c ∈ s.closing, Answers c.1 c.2

theorem prepared_next {s : PlaywrightPool β} (h : Prepared s) (e : Step β) :
    Prepared (next s e) := by
  intro c hc
  cases e with
  | render r =>
    rw [next, (render_keeps s r).2.2] at hc
    exact h c hc
  | loaded r html elapsedMs =>
    rcases List.mem_append.1 hc with hold | hnew
    · exact h c hold
    · rw [List.mem_singleton.1 hnew]
      exact answers_pageResult r html elapsedMs
  | failed r message =>
    rcases List.mem_append.1 hc with hold | hnew
    · exact h c hold
    · rw [List.mem_singleton.1 hnew]
      exact answers_errorResult r message
  | closed | notClosed => exact h c (List.mem_of_mem_erase hc)
  | launched | stopped | resumed | opened | notOpened => exact h c hc

theorem outcomes_answer {s : PlaywrightPool β} {e : Step β} (h : Prepared s) (he : Enabled s e) :
    ∀ o ∈ outcomes s e, ∀ result, o.2 = .answer result → Answers o.1 result := by
  intro o ho result hresult
  cases e with
  | render r =>
    rw [outcomes] at ho
    split at ho
    · rw [List.mem_singleton.1 ho] at hresult ⊢
      rw [← Outcome.answer.inj hresult]
      exact answers_notStarted r
    · cases ho
  | closed r prepared =>
    rw [List.mem_singleton.1 ho] at hresult ⊢
    rw [← Outcome.answer.inj hresult]
    exact h _ he
  | notOpened r message | notClosed r prepared message =>
    rw [List.mem_singleton.1 ho] at hresult
    cases hresult
  | launched | stopped | resumed | opened | loaded | failed => cases ho

/-- Every rendering that was begun has ended once or is still in hand; what it answers is about its
own page, with the page or an error; and once a browser was launched none is turned away, not even
when the pool was stopped. -/
theorem renders_answered {n : ℕ} {steps : List (Step β)}
    (h : ValidTrace Enabled next (.new n) steps) :
    let s := run n steps
    (begun steps).Perm ((ended n steps).map Prod.fst ++ inHand s) ∧
    (∀ r result, (r, .answer result) ∈ ended n steps → Answers r result) ∧
    ∀ b, Step.launched b ∈ steps → ∀ r, outcomes s (.render r) = [] := by
  intro s
  have hs : Sound n steps s := sound_run h
  refine ⟨?_, ?_, fun b hb r => ?_⟩
  · refine List.perm_iff_count.2 fun x => ?_
    rw [List.count_append]
    exact hs.calls x
  · intro r result hr
    exact (emitted_invariant (fun c hc => absurd hc List.not_mem_nil)
      (fun _ e hs he => ⟨prepared_next hs e, outcomes_answer hs he⟩) h).2 _ hr result rfl
  · cases hbrowser : s.browser with
    | none => exact absurd hb (hs.handle hbrowser b)
    | some launched => rw [outcomes, hbrowser]

theorem renders_answered_after_stop :
    let a : Render := ⟨0, "https://a.com"⟩
    let b : Render := ⟨1, "https://b.com"⟩
    let steps : List (Step ℕ) := [.render a, .launched 0, .stopped, .render b,
      .notOpened b "browser has been closed"]
    let s := run 4 steps
    (begun steps).Perm ((ended 4 steps).map Prod.fst ++ inHand s) ∧
    (∀ r result, (r, .answer result) ∈ ended 4 steps → Answers r result) ∧
    ∀ b, Step.launched b ∈ steps → ∀ r, outcomes s (.render r) = [] :=
  renders_answered (by decide)

end TrustCopilot.RenderPool
