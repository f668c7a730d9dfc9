import NamedQuery.Proofs.Sql.Arrangement

namespace NamedQuery

/-- Criteria that give no window outright. -/
def Criteria.unwindowed (c : Criteria) : Criteria :=
  { c with take := none, skip := none }

namespace Sql

open Piece

/-- A statement with a window behind all else. -/
def Statement.windowed (st : Statement) (limit offset : Int64) : Statement :=
  { st with sql :=
      st.sql ++ (windowText " LIMIT " (some limit) ++ windowText " OFFSET " (some offset)) }

namespace Select

theorem under_default (s : Select) : s.under .default = s := by
  rw [under, Criteria.default, List.map_nil, List.append_nil]
  cases s
  rfl

theorem pieces_unwindowed (s : Select) : s.pieces =
    s.unwindowed.pieces ++ (ofLimit s.limit ++ ofOffset s.offset) := by
  have hunder := s.pieces_under .default
  rw [under_default] at hunder
  exact hunder

theorem compile_eq_build (s : Select) (c : Criteria) :
    s.compile c = (s.arrange c).mapError .compile >>= build := by
  rw [compile]
  cases s.arrange c with
  | error fault => rfl
  | ok arranged => exact arranged.build_eq.symm

variable {limit offset : Int64}

theorem build_windowed {s : Select} (hs : s.limit = some limit) (hs' : s.offset = some offset)
    (hlimit : 0 ≤ limit) (hoffset : 0 ≤ offset) :
    s.build = s.unwindowed.build.map (·.windowed limit offset) := by
  have hsound : Sound (ofLimit (some limit) ++ ofOffset (some offset)) :=
    sound_append.2 ⟨(sound_ofLimit _).2 (by simpa), (sound_ofOffset _).2 (by simpa)⟩
  have hvalues : Piece.values (ofLimit (some limit) ++ ofOffset (some offset)) = [] := rfl
  have htext (bound : Nat) : charsAll bound (ofLimit (some limit) ++ ofOffset (some offset)) =
      (windowText " LIMIT " (some limit) ++ windowText " OFFSET " (some offset)).toList := by
    rw [charsAll_append, charsAll_ofLimit _ (by simpa), charsAll_ofOffset _ (by simpa),
      String.toList_append]
  rw [build_eq_pieces, build_eq_pieces, pieces_unwindowed, hs, hs']
  simp only [List.findSome?_append, List.findSome?_eq_none_iff.2 hsound, Option.or_none]
  cases s.unwindowed.pieces.findSome? fault? with
  | some fault => rfl
  | none =>
    rw [charsAll_append, htext, values_append, hvalues, List.append_nil, String.ofList_append,
      String.ofList_toList]
    rfl

/-- A window that is not negative does not keep a statement from being compiled: what does, does so
without a window. It stands behind all else, in place of what the statement had. -/
theorem compile_windowed (s : Select) {c : Criteria} (htake : c.take = some limit)
    (hskip : c.skip = some offset) (hlimit : 0 ≤ limit) (hoffset : 0 ≤ offset) :
    s.compile c = (s.unwindowed.compile c.unwindowed).map (·.windowed limit offset) := by
  rw [compile_eq_build, compile_eq_build, arrange, arrange, Criteria.unwindowed, htake, hskip]
  cases sortTerms c.sort with
  | error fault => rfl
  | ok terms => exact build_windowed rfl rfl hlimit hoffset

end Select
end Sql
end NamedQuery
