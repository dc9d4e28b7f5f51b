import TrustCopilot.Library.BudgetPrefix
import TrustCopilot.Library.PyText
import TrustCopilot.Library.Ranking
import TrustCopilot.Library.Trace
import Mathlib.Algebra.Order.Ring.Rat

/-! The account memory: chunks of text filed under accounts, and the retrieval of the most relevant
ones within a budget of words. Relevances are exact rationals. -/
namespace TrustCopilot.MemoryRetrieval

open TrustCopilot.PyText
open TrustCopilot.Ranking
open TrustCopilot.BudgetPrefix

structure MemoryChunk where
  accountId : String
  chunkType : String
  text : String
  sourceId : String := ""
  createdAt : ℤ
  relevanceScore : ℚ := 0
  deriving DecidableEq, Repr

structure AccountMemoryIndex where
  chunks : List MemoryChunk := []
  deriving DecidableEq, Repr

/-- `now` is when the chunk is created. -/
def store (idx : AccountMemoryIndex) (now : ℤ) (accountId chunkType text : String)
    (sourceId : String := "") (relevance : ℚ := 5 / 10) : AccountMemoryIndex where
  chunks := idx.chunks ++ [{
    accountId := accountId
    chunkType := chunkType
    text := text
    sourceId := sourceId
    createdAt := now
    relevanceScore := relevance }]

def results (idx : AccountMemoryIndex) (accountId : String) (chunkType : String := "") :
    List MemoryChunk :=
  let own := idx.chunks.filter fun c => c.accountId = accountId
  if chunkType = "" then own else own.filter fun c => c.chunkType = chunkType

def retrieve (idx : AccountMemoryIndex) (accountId : String) (chunkType : String := "")
    (topK : ℕ := 5) : List MemoryChunk :=
  (ranked MemoryChunk.relevanceScore (results idx accountId chunkType)).take topK

def chunkTokens (c : MemoryChunk) : ℕ := (words c.text).length

/-- The loop breaks at the first chunk that is too long for what is left. -/
def retrieveGrounded (idx : AccountMemoryIndex) (accountId : String) (maxTokens : ℕ := 500)
    (topK : ℕ := 10) : List MemoryChunk :=
  within chunkTokens maxTokens 0 (retrieve idx accountId "" topK)

section Retrieval

variable {idx : AccountMemoryIndex} {accountId chunkType : String} {topK maxTokens : ℕ}

theorem mem_results {c : MemoryChunk} : c ∈ results idx accountId chunkType ↔
    c ∈ idx.chunks ∧ c.accountId = accountId ∧ (chunkType = "" ∨ c.chunkType = chunkType) := by
  rw [results]
  split
  · next h => simp [h]
  · next h => simp [h, and_comm]

theorem mem_of_retrieve {c : MemoryChunk} (h : c ∈ retrieve idx accountId chunkType topK) :
    c ∈ results idx accountId chunkType := mem_ranked.1 (List.mem_of_mem_take h)

theorem retrieve_length :
    (retrieve idx accountId chunkType topK).length =
      min topK (results idx accountId chunkType).length := by
  rw [retrieve, List.length_take, (ranked_perm _ _).length_eq]

theorem retrieve_falls :
    (retrieve idx accountId chunkType topK).Pairwise (NotBelow MemoryChunk.relevanceScore) :=
  (ranked_pairwise _ _).sublist (List.take_sublist _ _)

theorem retrieve_best {c d : MemoryChunk} (hc : c ∈ retrieve idx accountId chunkType topK)
    (hd : d ∈ (ranked MemoryChunk.relevanceScore
      (results idx accountId chunkType)).drop topK) : d.relevanceScore ≤ c.relevanceScore :=
  take_heaviest (ranked_pairwise _ _) topK c hc d hd

/-- With room for one chunk, the first one retrieved is the leading chunk of the account. -/
theorem head?_retrieve (hk : 1 ≤ topK) {c : MemoryChunk} :
    (retrieve idx accountId chunkType topK).head? = some c ↔
      Leading MemoryChunk.relevanceScore c (results idx accountId chunkType) := by
  rw [← head?_ranked_iff, retrieve, List.head?_take, if_neg (by omega)]

def Fits (maxTokens : ℕ) (c : MemoryChunk) : Prop := chunkTokens c ≤ maxTokens

instance (maxTokens : ℕ) (c : MemoryChunk) : Decidable (Fits maxTokens c) :=
  inferInstanceAs (Decidable (_ ≤ _))

/-- Chunks of the account, the most relevant first, within the budget, and at least one if one of
the best would fit. -/
structure Grounded (idx : AccountMemoryIndex) (accountId : String) (maxTokens topK : ℕ) :
    Prop where
  own : ∀ c ∈ retrieveGrounded idx accountId maxTokens topK,
    c ∈ idx.chunks ∧ c.accountId = accountId
  falls : (retrieveGrounded idx accountId maxTokens topK).Pairwise
    (NotBelow MemoryChunk.relevanceScore)
  budget : ((retrieveGrounded idx accountId maxTokens topK).map chunkTokens).sum ≤ maxTokens
  found : (∃ c ∈ retrieve idx accountId "" topK, Fits maxTokens c) →
    retrieveGrounded idx accountId maxTokens topK ≠ []

theorem retrieveGrounded_prefix :
    retrieveGrounded idx accountId maxTokens topK <+: retrieve idx accountId "" topK :=
  within_prefix

theorem grounded_own {c : MemoryChunk} (h : c ∈ retrieveGrounded idx accountId maxTokens topK) :
    c ∈ idx.chunks ∧ c.accountId = accountId := by
  have hlead : retrieveGrounded idx accountId maxTokens topK <+: retrieve idx accountId "" topK :=
    retrieveGrounded_prefix
  obtain ⟨hc, haccount, -⟩ := mem_results.1 (mem_of_retrieve (hlead.subset h))
  exact ⟨hc, haccount⟩

theorem grounded_falls : (retrieveGrounded idx accountId maxTokens topK).Pairwise
    (NotBelow MemoryChunk.relevanceScore) :=
  retrieve_falls.sublist retrieveGrounded_prefix.sublist

theorem grounded_budget :
    ((retrieveGrounded idx accountId maxTokens topK).map chunkTokens).sum ≤ maxTokens := by
  have h : 0 + ((retrieveGrounded idx accountId maxTokens topK).map chunkTokens).sum ≤
      maxTokens := within_sum_le (Nat.zero_le maxTokens)
  rwa [Nat.zero_add] at h

/-- Whenever one of the best chunks fits, the leading chunk of the account does. -/
def LeadingFits (idx : AccountMemoryIndex) (accountId : String) (maxTokens topK : ℕ) : Prop :=
  (∃ c ∈ retrieve idx accountId "" topK, Fits maxTokens c) →
    ∀ c, Leading MemoryChunk.relevanceScore c (results idx accountId) → Fits maxTokens c

/-- The retrieval is grounded exactly where an oversized chunk does not lead the account's chunks
while another of the best ones fits. -/
theorem grounded_iff_leadingFits (hk : 1 ≤ topK) :
    Grounded idx accountId maxTokens topK ↔ LeadingFits idx accountId maxTokens topK := by
  have hempty : retrieveGrounded idx accountId maxTokens topK = [] ↔
      ∀ c, Leading MemoryChunk.relevanceScore c (results idx accountId) → ¬ Fits maxTokens c := by
    rw [retrieveGrounded, within_eq_nil_iff]
    refine forall_congr' fun c => ?_
    rw [head?_retrieve hk, Nat.zero_add, Fits, not_le]
  constructor
  · intro h hfits c hlead
    by_contra hover
    refine h.found hfits (hempty.2 ?_)
    intro d hd
    rw [hd.unique hlead]
    exact hover
  · intro h
    refine ⟨fun c hc => grounded_own hc, grounded_falls, grounded_budget, ?_⟩
    intro hfits hnil
    obtain ⟨c, hc, hc'⟩ := hfits
    obtain ⟨d, hd⟩ : ∃ d, (retrieve idx accountId "" topK).head? = some d := by
      cases hr : retrieve idx accountId "" topK with
      | nil => rw [hr] at hc; cases hc
      | cons d ds => exact ⟨d, rfl⟩
    have hlead := (head?_retrieve hk).1 hd
    exact hempty.1 hnil d hlead (h ⟨c, hc, hc'⟩ d hlead)

end Retrieval

def longBrief : AccountMemoryIndex :=
  store (store {} 0 "acc-1" "research_brief" "raised a new round" "" (9 / 10)) 1 "acc-1"
    "signal_evidence" "SOC 2" "" (8 / 10)

theorem long_brief_grounded : 1 ≤ 10 ∧ (Grounded longBrief "acc-1" 100 10 ↔
    LeadingFits longBrief "acc-1" 100 10) :=
  ⟨by decide, grounded_iff_leadingFits (by decide)⟩

/-- A brief of four words ranks first: with a budget of three words nothing is retrieved, and the
two words behind it would fit. -/
theorem long_brief_blocks :
    (∃ c ∈ retrieve longBrief "acc-1" "" 10, Fits 3 c) ∧
      retrieveGrounded longBrief "acc-1" 3 10 = [] ∧ ¬ Grounded longBrief "acc-1" 3 10 := by
  have hfits : ∃ c ∈ retrieve longBrief "acc-1" "" 10, Fits 3 c := by decide +kernel
  have hnone : retrieveGrounded longBrief "acc-1" 3 10 = [] := by decide +kernel
  exact ⟨hfits, hnone, fun h => h.found hfits hnone⟩

end TrustCopilot.MemoryRetrieval
