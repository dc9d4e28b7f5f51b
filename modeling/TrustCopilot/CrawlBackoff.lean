import TrustCopilot.CrawlScheduler

/-! The delays of a failing source. The backoff is capped and the interval of a healthy source is
not, so a source with a longer interval than the cap is crawled sooner when it fails. -/
namespace TrustCopilot.CrawlBackoff

open TrustCopilot.CrawlScheduler

def failing (src : SourceEntry) (failures : ℕ) : SourceEntry :=
  { src with consecutiveFailures := failures }

structure NeverSooner (src : SourceEntry) : Prop where
  delays : ∀ i j, i ≤ j →
    hours (backoffHours (failing src i)) ≤ hours (backoffHours (failing src j))
  further : ∀ failures now error src', fail now error (failing src failures) = some src' →
    ∃ t, src'.nextCrawlAt = some t ∧ now + hours (backoffHours (failing src failures)) ≤ t
  healthy : ∀ failures, hours src.recrawlHours ≤ hours (backoffHours (failing src failures))

variable {src : SourceEntry}

theorem hours_le_hours {m n : ℤ} : hours m ≤ hours n ↔ m ≤ n := by
  rw [hours, hours]
  omega

theorem backoffHours_healthy (src : SourceEntry) :
    backoffHours (failing src 0) = src.recrawlHours := rfl

theorem backoffHours_failed (src : SourceEntry) (failures : ℕ) :
    backoffHours (failing src (failures + 1)) =
      min (src.recrawlHours * 2 ^ (failures + 1)) maxBackoffHours :=
  if_pos (Nat.succ_pos failures)

theorem backoffHours_step (hpos : 1 ≤ src.recrawlHours)
    (hcap : src.recrawlHours ≤ maxBackoffHours) (failures : ℕ) :
    backoffHours (failing src failures) ≤ backoffHours (failing src (failures + 1)) := by
  rw [backoffHours_failed]
  cases failures with
  | zero =>
    rw [backoffHours_healthy]
    apply le_min
    · omega
    · exact hcap
  | succ failures =>
    rw [backoffHours_failed]
    apply min_le_min_right
    apply mul_le_mul_of_nonneg_left
    · exact pow_le_pow_right₀ (by decide) (Nat.le_succ _)
    · omega

theorem backoffHours_mono (hpos : 1 ≤ src.recrawlHours) (hcap : src.recrawlHours ≤ maxBackoffHours)
    {i j : ℕ} (h : i ≤ j) : backoffHours (failing src i) ≤ backoffHours (failing src j) := by
  induction h with
  | refl => exact le_refl _
  | @step j _ ih => exact ih.trans (backoffHours_step hpos hcap j)

/-- The delays do not shrink exactly if the interval is within the cap. -/
theorem neverSooner_iff (hpos : 1 ≤ src.recrawlHours) :
    NeverSooner src ↔ src.recrawlHours ≤ maxBackoffHours := by
  constructor
  · intro h
    have hfirst := hours_le_hours.1 (h.delays 0 1 (Nat.zero_le 1))
    rw [backoffHours_failed] at hfirst
    exact hfirst.trans (min_le_right _ _)
  · intro hcap
    constructor
    · intro i j hij
      exact hours_le_hours.2 (backoffHours_mono hpos hcap hij)
    · intro failures now error src' hfail
      refine ⟨_, congrArg SourceEntry.nextCrawlAt (fail_some hfail), ?_⟩
      have hstep := hours_le_hours.2 (backoffHours_step hpos hcap failures)
      rw [backoffHours_failed] at hstep
      exact Int.add_le_add_left hstep now
    · intro failures
      exact hours_le_hours.2 (backoffHours_mono hpos hcap (Nat.zero_le failures))

def weekly : SourceEntry where
  id := "src-1"
  sourceType := "company_site"
  urlPattern := "https://example.com/trust"
  domain := "example.com"

theorem weekly_never_sooner : NeverSooner weekly := (neverSooner_iff (by decide)).2 (by decide)

/-- A source to be crawled every thousand hours is crawled after 720 when it has failed. -/
theorem failed_sooner :
    nextCrawlTime { weekly with recrawlHours := 1000 } 0 = some (hours 1000) ∧
    (fail 0 "timeout" { weekly with recrawlHours := 1000 }).bind SourceEntry.nextCrawlAt =
      some (hours 720) ∧
    ¬ NeverSooner { weekly with recrawlHours := 1000 } := by
  refine ⟨by decide, by decide, fun h => ?_⟩
  exact absurd (h.healthy 1) (by decide)

end TrustCopilot.CrawlBackoff
