import Mathlib.Data.List.InsertIdx
import WgDesktop.Lib.Ranking

/-!
# Recommended locations

`recommendedLocations` and `pickBest` of `src/models/recommendedlocationmodel.cpp`, over any cities
and any values for the rank of a city, which the source computes from its score, latency and
distance as a `double`.
-/

namespace WgDesktop

open Ranking

namespace RecommendedLocationModel

variable {City α : Type*} [LinearOrder α]

/-- The two vectors of the loop. -/
structure Results (City α : Type*) where
  cityResults : List City := []
  rankResults : List α := []

/-- One turn of the loop over the cities. -/
def addCity (maxResults : ℕ) (s : Results City α) (city : City) (cityRanking : α) :
    Results City α :=
  let i := s.rankResults.findIdx (· < cityRanking)
  let s := if i < maxResults then
      { cityResults := s.cityResults.insertIdx i city
        rankResults := s.rankResults.insertIdx i cityRanking }
    else s
  if s.rankResults.length > maxResults then
    { cityResults := s.cityResults.take maxResults
      rankResults := s.rankResults.take maxResults }
  else s

def recommendedLocations (cityRanking : City → α) (cities : List City) (maxResults : ℕ) :
    List City :=
  (cities.foldl (fun s city => addCity maxResults s city (cityRanking city)) {}).cityResults

def pickBest (cityRanking : City → α) (cities : List City) : Option City :=
  (recommendedLocations cityRanking cities 1).head?

/-! ## The loop -/

/-- The ranks of `s` are those of its cities. -/
def Parallel (cityRanking : City → α) (s : Results City α) : Prop :=
  s.rankResults = s.cityResults.map cityRanking

theorem insertIdx_findIdx (cityRanking : City → α) (city : City) (cities : List City) :
    cities.insertIdx ((cities.map cityRanking).findIdx (· < cityRanking city)) city =
      insertRanked cityRanking city cities := by
  induction cities with
  | nil => rfl
  | cons other cities ih =>
    rw [List.map_cons, List.findIdx_cons, insertRanked_cons]
    by_cases hlt : cityRanking other < cityRanking city
    · rw [if_pos hlt, decide_eq_true hlt]
      rfl
    · rw [if_neg hlt, decide_eq_false hlt, ← ih]
      rfl

theorem addCity_eq {cityRanking : City → α} {s : Results City α} (h : Parallel cityRanking s)
    (maxResults : ℕ) (city : City) :
    Parallel cityRanking (addCity maxResults s city (cityRanking city)) ∧
      (addCity maxResults s city (cityRanking city)).cityResults =
        (insertRanked cityRanking city s.cityResults).take maxResults := by
  obtain ⟨cities, ranks⟩ := s
  obtain rfl : ranks = cities.map cityRanking := h
  simp only [addCity, Parallel]
  split
  case isTrue hi =>
    rw [insertIdx_findIdx, ← List.map_insertIdx, insertIdx_findIdx]
    split
    case isTrue hlen => exact ⟨List.map_take.symm, rfl⟩
    case isFalse hlen =>
      rw [List.length_map, not_lt] at hlen
      exact ⟨rfl, (List.take_of_length_le hlen).symm⟩
  case isFalse hi =>
    -- a city that comes after the first `maxResults` changes nothing among these
    rw [← insertIdx_findIdx, List.take_insertIdx_eq_take_of_le _ _ _ _ (not_lt.mp hi)]
    split
    case isTrue hlen => exact ⟨List.map_take.symm, rfl⟩
    case isFalse hlen =>
      rw [List.length_map, not_lt] at hlen
      exact ⟨rfl, (List.take_of_length_le hlen).symm⟩

theorem foldl_addCity (cityRanking : City → α) (maxResults : ℕ) (cities : List City) :
    ∀ s : Results City α, Parallel cityRanking s →
      (cities.foldl (fun s city => addCity maxResults s city (cityRanking city)) s).cityResults =
        cities.foldl (fun best city => (insertRanked cityRanking city best).take maxResults)
          s.cityResults := by
  induction cities with
  | nil => exact fun s _ => rfl
  | cons city cities ih =>
    intro s hs
    obtain ⟨hparallel, hcities⟩ := addCity_eq hs maxResults city
    rw [List.foldl_cons, List.foldl_cons, ih _ hparallel, hcities]

theorem recommendedLocations_eq (cityRanking : City → α) (cities : List City) (maxResults : ℕ) :
    recommendedLocations cityRanking cities maxResults =
      (byRank cityRanking cities).take maxResults := by
  rw [recommendedLocations, foldl_addCity cityRanking maxResults cities {} rfl]
  exact foldl_insertRanked_take maxResults cities

theorem pickBest_eq (cityRanking : City → α) (cities : List City) :
    pickBest cityRanking cities = (byRank cityRanking cities).head? := by
  rw [pickBest, recommendedLocations_eq, List.head?_take]
  rfl

/-- The locations are the first ones in the order of decreasing rank, which keeps the order of
cities of one rank, and the best one has the highest rank. -/
theorem recommendedLocations_top (cityRanking : City → α) (cities : List City) (maxResults : ℕ) :
    recommendedLocations cityRanking cities maxResults =
        (cities.mergeSort fun a b => decide (cityRanking b ≤ cityRanking a)).take maxResults ∧
      (recommendedLocations cityRanking cities maxResults).length =
        min maxResults cities.length ∧
      (pickBest cityRanking cities = none ↔ cities = []) ∧
      ∀ best ∈ pickBest cityRanking cities,
        best ∈ cities ∧ ∀ city ∈ cities, cityRanking city ≤ cityRanking best := by
  have hperm := byRank_perm cityRanking cities
  refine ⟨recommendedLocations_eq cityRanking cities maxResults, ?_, ?_, ?_⟩
  · rw [recommendedLocations_eq, List.length_take, hperm.length_eq]
  · rw [pickBest_eq, List.head?_eq_none_iff]
    constructor
    · intro hnil
      rw [hnil] at hperm
      exact hperm.symm.eq_nil
    · rintro rfl
      exact hperm.eq_nil
  · intro best hbest
    rw [pickBest_eq] at hbest
    exact ⟨hperm.mem_iff.mp (List.mem_of_mem_head? hbest), fun city hcity =>
      le_head_byRank hbest hcity⟩

/-- Cities with their scores: of the three with the score 7, the first two. -/
example : recommendedLocations Prod.snd
    [("a", 3), ("b", 7), ("c", 9), ("d", 7), ("e", 7)] 3 = [("c", 9), ("b", 7), ("d", 7)] := by
  decide

end RecommendedLocationModel

end WgDesktop
