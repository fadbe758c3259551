import PlantEconomics.Market.RepresentativeDays
import PlantEconomics.Proofs.Outcome

/-!
# What representative days are made of

Grouping days is one call of the clusterer, with the stream of seeds at the start. The state of the
clusterer is the only thing that one grouping leaves to the next.
-/

namespace PlantEconomics

namespace RepresentativeDays

variable {α σ : Type} [Scalar α]

/-- Days are grouped by one call of the clusterer, with the stream at the start of the seed. -/
theorem yields_ofDays_iff {days : DayProfiles α} {k : Nat} {seed : UInt64} {fit : Clusterer α σ}
    {own own' : σ} {r : RepresentativeDays α} :
    Yields (ofDays days k seed fit) own r own' ↔
      ∃ p stream, Yields (fit days.days k) (Random.SeedStream.ofSeed seed, own) p (stream, own') ∧
        ofPartition p = r := by
  unfold ofDays
  rw [yields_bind_iff]
  simp only [yields_get_iff]
  constructor
  · rintro ⟨_, _, ⟨rfl, rfl⟩, h⟩
    rcases hcall : (fit days.days k).run.run (Random.SeedStream.ofSeed seed, own) with
      ⟨result, stream, own₂⟩
    rw [hcall] at h
    obtain ⟨_, _, hset, h⟩ := yields_bind_iff.1 h
    obtain ⟨p, _, hp, h⟩ := yields_bind_iff.1 h
    obtain rfl := yields_set_iff.1 hset
    obtain ⟨rfl, rfl⟩ := yields_lift_iff.1 hp
    obtain ⟨rfl, rfl⟩ := yields_pure_iff.1 h
    exact ⟨p, stream, hcall, rfl⟩
  · rintro ⟨p, stream, hcall, rfl⟩
    refine ⟨_, _, ⟨rfl, rfl⟩, ?_⟩
    have hcall : (fit days.days k).run.run (Random.SeedStream.ofSeed seed, own) = _ := hcall
    rw [hcall]
    exact yields_bind_iff.2 ⟨⟨⟩, _, yields_set_iff.2 rfl, yields_bind_iff.2
      ⟨p, _, yields_lift_iff.2 ⟨rfl, rfl⟩, yields_pure_iff.2 ⟨rfl, rfl⟩⟩⟩

theorem yields_ofSeries_iff {s : PriceSeries α} {horizon k : Nat} {seed : UInt64}
    {fit : Clusterer α σ} {own own' : σ} {r : RepresentativeDays α} :
    Yields (ofSeries s horizon k seed fit) own r own' ↔
      ∃ days, DayProfiles.ofSeries s horizon = .ok days ∧
        Yields (ofDays days k seed fit) own r own' := by
  unfold ofSeries
  simp only [yields_bind_iff, yields_lift_iff]
  constructor
  · rintro ⟨days, _, ⟨cut, rfl⟩, run⟩
    exact ⟨days, cut, run⟩
  · rintro ⟨days, cut, run⟩
    exact ⟨days, _, ⟨cut, rfl⟩, run⟩

end RepresentativeDays

end PlantEconomics
