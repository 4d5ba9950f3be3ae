import JsonRpcRelay.Errors
import JsonRpcRelay.Framework.Program
import JsonRpcRelay.JavaScript

/-!
# Paginated results

The mirror node returns long results page by page, each with the link to the next one.  The pages
of a request are followed up to a maximum.
-/

namespace JsonRpcRelay.Mirror

open Framework Js

section Requests

variable {α : Type}

/-- The result property of a page and its link to the next one. -/
structure Page (α : Type) where
  results : Option (List α)
  next : Option String

/-- Requests by their paths.  A path may lead to nothing. -/
abbrev PageM (α : Type) := ExceptT RelayError (Prog String fun _ => Option (Page α))

def getPage (url : String) : PageM α (Option (Page α)) := ExceptT.lift (Prog.call url)

/-- `text.replace(pattern, '')`, where the pattern is not empty. -/
def removeFirst (pattern : List Char) : List Char → List Char
  | [] => []
  | c :: text =>
    if pattern.isPrefixOf (c :: text) then (c :: text).drop pattern.length
    else c :: removeFirst pattern text

def NEXT_LINK_PREFIX : String := "/api/v1/"

def resultsOf (result : Option (Page α)) : List α := (result.bind Page.results).getD []

/-- The path of the next page.  An empty link is none. -/
def nextOf (result : Option (Page α)) : Option String :=
  ((result.bind Page.next).filter (· ≠ "")).map fun next =>
    String.ofList (removeFirst NEXT_LINK_PREFIX.toList next.toList)

def getPaginatedResultsFrom (pageMax : ℕ) (url : String) (results : List α) (page : ℕ) :
    PageM α (List α) := do
  let result ← getPage url
  let results := results ++ resultsOf result
  if page = pageMax then throw (.jsonRpcError (predefined.PAGINATION_MAX pageMax))
  else
    match nextOf result with
    | some next =>
      if page < pageMax then getPaginatedResultsFrom pageMax next results (page + 1)
      else return results
    | none => return results
termination_by pageMax - page

def getPaginatedResults (pageMax : ℕ) (url : String) : PageM α (List α) :=
  getPaginatedResultsFrom pageMax url [] 1

end Requests

section Chains

variable {α : Type} (mirror : String → Option (Page α))

/-- The result of requests to a mirror node behind `n` others, and how many there are then. -/
def answerPages {β : Type} (x : PageM α β) (n : ℕ) : Except RelayError β × ℕ :=
  x.run.run (fun url n => (mirror url, n + 1)) n

/-- The first pages of a chain, or all if there are not so many. -/
def pagesFrom : ℕ → String → List (Option (Page α))
  | 0, _ => []
  | n + 1, url => mirror url :: (nextOf (mirror url)).elim [] (pagesFrom n)

/-- The chain of pages ends with one of the first `n`. -/
def HasAtMost (url : String) (n : ℕ) : Prop := (pagesFrom mirror (n + 1) url).length ≤ n

/-- A number of requests within the limit, all pages of a chain within the limit, and an error
for the other chains only. -/
structure ReturnsEverything (url : String) (pageMax : ℕ) : Prop where
  requests : (answerPages mirror (getPaginatedResults pageMax url) 0).2 ≤ pageMax
  returns : HasAtMost mirror url pageMax →
    (answerPages mirror (getPaginatedResults pageMax url) 0).1 =
      .ok ((pagesFrom mirror pageMax url).flatMap resultsOf)
  fails : (answerPages mirror (getPaginatedResults pageMax url) 0).1 =
      .error (.jsonRpcError (predefined.PAGINATION_MAX pageMax)) ↔ ¬HasAtMost mirror url pageMax

variable {mirror}

private theorem length_pagesFrom_le (n : ℕ) (url : String) :
    (pagesFrom mirror n url).length ≤ n := by
  induction n generalizing url with
  | zero => exact Nat.le_refl 0
  | succ n ih =>
    rw [pagesFrom, List.length_cons]
    cases nextOf (mirror url) with
    | none => exact Nat.succ_le_succ (Nat.zero_le n)
    | some next => exact Nat.succ_le_succ (ih next)

private theorem pagesFrom_of_length_le {n m : ℕ} {url : String} (hnm : n ≤ m)
    (h : (pagesFrom mirror m url).length ≤ n) : pagesFrom mirror n url = pagesFrom mirror m url := by
  induction n generalizing m url with
  | zero =>
    rw [List.eq_nil_of_length_eq_zero (Nat.le_zero.mp h)]
    rfl
  | succ n ih =>
    obtain ⟨m, rfl⟩ := Nat.exists_eq_add_of_le' (Nat.lt_of_lt_of_le (Nat.succ_pos n) hnm)
    rw [pagesFrom, List.length_cons] at h
    rw [pagesFrom, pagesFrom]
    cases hnext : nextOf (mirror url) with
    | none => rfl
    | some next =>
      rw [hnext, Option.elim_some] at h
      rw [Option.elim_some, Option.elim_some,
        ih (Nat.le_of_succ_le_succ hnm) (Nat.le_of_succ_le_succ h)]

/-- The chain has ended before. -/
theorem pagesFrom_succ_of_lt {n : ℕ} {url : String} (h : (pagesFrom mirror n url).length < n) :
    pagesFrom mirror (n + 1) url = pagesFrom mirror n url := by
  induction n generalizing url with
  | zero => exact absurd h (Nat.lt_irrefl 0)
  | succ n ih =>
    rw [pagesFrom, List.length_cons] at h
    rw [pagesFrom, pagesFrom]
    cases hnext : nextOf (mirror url) with
    | none => rfl
    | some next =>
      rw [hnext, Option.elim_some] at h
      rw [Option.elim_some, Option.elim_some, ih (Nat.lt_of_succ_lt_succ h)]

theorem hasAtMost_of_lt {n : ℕ} {url : String} (h : (pagesFrom mirror n url).length < n) :
    HasAtMost mirror url n := by
  rw [HasAtMost, pagesFrom_succ_of_lt h]
  exact h.le

private theorem hasAtMost_iff_of_ne {n : ℕ} {url : String}
    (h : (pagesFrom mirror (n + 1) url).length ≠ n) :
    HasAtMost mirror url n ↔ (pagesFrom mirror n url).length < n := by
  constructor
  · intro hmost
    rw [pagesFrom_of_length_le (Nat.le_succ n) hmost]
    exact Nat.lt_of_le_of_ne hmost h
  · exact hasAtMost_of_lt

private theorem HasAtMost.pagesFrom_eq {n m : ℕ} {url : String} (h : HasAtMost mirror url n)
    (hnm : n ≤ m) : pagesFrom mirror m url = pagesFrom mirror n url := by
  induction n generalizing m url with
  | zero => exact absurd h (Nat.not_succ_le_zero _)
  | succ n ih =>
    obtain ⟨m, rfl⟩ := Nat.exists_eq_add_of_le' (Nat.lt_of_lt_of_le (Nat.succ_pos n) hnm)
    rw [HasAtMost, pagesFrom, List.length_cons] at h
    rw [pagesFrom, pagesFrom]
    cases hnext : nextOf (mirror url) with
    | none => rfl
    | some next =>
      rw [hnext, Option.elim_some] at h
      rw [Option.elim_some, Option.elim_some,
        ih (Nat.le_of_succ_le_succ h) (Nat.le_of_succ_le_succ hnm)]

theorem HasAtMost.eq_pagesFrom {n m : ℕ} {url : String} (h : HasAtMost mirror url n)
    (h' : HasAtMost mirror url m) : pagesFrom mirror n url = pagesFrom mirror m url := by
  rcases Nat.le_total n m with hle | hle
  · exact (h.pagesFrom_eq hle).symm
  · exact h'.pagesFrom_eq hle

private theorem answerPages_getPage_bind {β : Type} {url : String} {f : Option (Page α) → PageM α β}
    {n : ℕ} : answerPages mirror (getPage url >>= f) n =
      answerPages mirror (f (mirror url)) (n + 1) := rfl

/-- A chain that ends before the last allowed page is returned, any other one is not. -/
theorem answerPages_getPaginatedResultsFrom {pageMax left page : ℕ} (h : page + left = pageMax)
    (url : String) (results : List α) (n : ℕ) :
    answerPages mirror (getPaginatedResultsFrom pageMax url results page) n =
      if (pagesFrom mirror (left + 1) url).length ≤ left then
        (.ok (results ++ (pagesFrom mirror (left + 1) url).flatMap resultsOf),
          n + (pagesFrom mirror (left + 1) url).length)
      else (.error (.jsonRpcError (predefined.PAGINATION_MAX pageMax)), n + (left + 1)) := by
  induction left generalizing page url results n with
  | zero =>
    have hpage : page = pageMax := h
    rw [getPaginatedResultsFrom, answerPages_getPage_bind, if_pos hpage, pagesFrom, List.length_cons,
      if_neg (Nat.not_succ_le_zero _)]
    rfl
  | succ left ih =>
    have hpage : page ≠ pageMax := by omega
    have hlt : page < pageMax := by omega
    rw [getPaginatedResultsFrom, answerPages_getPage_bind, if_neg hpage, pagesFrom]
    cases nextOf (mirror url) with
    | none =>
      rw [Option.elim_none, List.length_singleton, if_pos (Nat.succ_le_succ (Nat.zero_le left)),
        List.flatMap_singleton]
      rfl
    | some next =>
      rw [Option.elim_some, List.length_cons, List.flatMap_cons]
      dsimp only
      rw [if_pos hlt, ih (by omega) next]
      split
      · next hle =>
        rw [if_pos (Nat.succ_le_succ hle), List.append_assoc, Nat.add_assoc, Nat.add_comm 1]
      · next hnle =>
        rw [if_neg (mt Nat.le_of_succ_le_succ hnle), Nat.add_assoc, Nat.add_comm 1]

/-- What the results of a chain are, with the number of requests. -/
theorem answerPages_getPaginatedResults {pageMax : ℕ} (h : 1 ≤ pageMax) (url : String) :
    answerPages mirror (getPaginatedResults pageMax url) 0 =
      if (pagesFrom mirror pageMax url).length < pageMax then
        (.ok ((pagesFrom mirror pageMax url).flatMap resultsOf),
          (pagesFrom mirror pageMax url).length)
      else (.error (.jsonRpcError (predefined.PAGINATION_MAX pageMax)), pageMax) := by
  obtain ⟨left, rfl⟩ := Nat.exists_eq_add_of_le' h
  have hrun := @answerPages_getPaginatedResultsFrom α mirror (left + 1) left 1 (Nat.add_comm 1 left) url
    [] 0
  rw [List.nil_append, Nat.zero_add, Nat.zero_add] at hrun
  simp only [Nat.lt_succ_iff]
  exact hrun

/-- Everything is returned within the limit unless the chain ends with the very last page that is
allowed. -/
theorem returns_everything_iff (mirror : String → Option (Page α)) (url : String) {pageMax : ℕ}
    (h : 1 ≤ pageMax) : ReturnsEverything mirror url pageMax ↔
      (pagesFrom mirror (pageMax + 1) url).length ≠ pageMax := by
  have hrun := @answerPages_getPaginatedResults α mirror pageMax h url
  constructor
  · intro heverything hlength
    have hmost : HasAtMost mirror url pageMax := Nat.le_of_eq hlength
    have hok := heverything.returns hmost
    rw [hrun, pagesFrom_of_length_le (Nat.le_succ pageMax) hmost, hlength,
      if_neg (Nat.lt_irrefl pageMax)] at hok
    cases hok
  · intro hne
    have hmost := hasAtMost_iff_of_ne hne
    by_cases hat : HasAtMost mirror url pageMax
    · rw [if_pos (hmost.mp hat)] at hrun
      constructor
      · rw [hrun]
        exact length_pagesFrom_le pageMax url
      · intro _
        rw [hrun]
      · rw [hrun]
        exact iff_of_false nofun (not_not_intro hat)
    · rw [if_neg (mt hmost.mpr hat)] at hrun
      constructor
      · rw [hrun]
      · exact fun hmost => absurd hmost hat
      · rw [hrun]
        exact iff_of_true rfl hat

/-- Three pages, the second one without results. -/
def threePages (url : String) : Option (Page ℕ) :=
  if url = "accounts" then some ⟨some [1, 2], some "/api/v1/accounts?page=2"⟩
  else if url = "accounts?page=2" then some ⟨none, some "/api/v1/accounts?page=3"⟩
  else if url = "accounts?page=3" then some ⟨some [3], none⟩
  else none

/-- All three are asked for, and no more. -/
theorem returns_everything_three_pages : 1 ≤ 5 ∧ ReturnsEverything threePages "accounts" 5 ∧
    (pagesFrom threePages 5 "accounts").flatMap resultsOf = [1, 2, 3] :=
  ⟨by decide, (returns_everything_iff threePages "accounts" (by decide)).mpr (by decide), by decide⟩

/-- One page without a link. -/
def onePage (url : String) : Option (Page ℕ) :=
  if url = "accounts" then some ⟨some [1, 2], none⟩ else none

theorem last_page_refused : ¬ReturnsEverything onePage "accounts" 1 := by
  intro h
  have hok := h.returns (Nat.le_refl 1)
  rw [answerPages_getPaginatedResults (by decide)] at hok
  cases hok

end Chains

end JsonRpcRelay.Mirror
