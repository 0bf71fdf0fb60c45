/-
# Emblems: a league's team

The names and the logos of the teams in `res/values/strings.xml`, the look-up of an
emblem's logo, and the two spinners that an emblem is chosen with. A spinner asks
its adapter for the view of the position it is set to, and a position without a logo
is out of bounds.

The emblem's look-up and the spinner's view have the same bound, the number of teams
of the league. The edit of a profile sets the team again when the league changes, and
its guard lets the position through that is exactly that number.

Key definitions: `emblemUtil`, `SpinnerAdapter`, `Spinner`, `HasTeam`,
`AuthSignUpProfile.updateSpinner`, `ProfileEditActivity.updateSpinner`, `Shows`.
Key theorems: `emblemUtil_isSome_iff`, `getView_teamAdapter`,
`ProfileEditActivity.updateSpinner_eq`.
-/
import Mathlib.Tactic.IntervalCases
import FootballGallery.AuthSignUpProfile
import FootballGallery.ProfileEditActivity

namespace FootballGallery

/-! ### `res/values/strings.xml` -/

namespace Emblems

def leaguesFull : List String :=
  ["England - English Premier League", "Spain - Primera La Liga", "Germany - 1. Bundesliga",
   "Italy - Serie A", "France - Ligue 1"]

def leaguesLogoStr : List String :=
  ["m_laliga.png", "m_bundes.png", "m_epl.png", "m_ligue1.png", "m_seriea.png"]

def teamsEpl : List String :=
  ["Arsenal", "Aston Villa", "Brentford", "Brighton & Hove Albion", "Burnley", "Chelsea", "Crystal Palace",
   "Everton", "Leeds United", "Leicester City", "Liverpool", "Manchester City", "Manchester United",
   "Newcastle United", "Norwich City", "Southampton", "Tottenham Hotspur", "Watford", "West Ham United",
   "Wolverhampton Wanderers"]

def teamsLaliga : List String :=
  ["Alavés", "Athletic Bilbao", "Atlético Madrid", "Barcelona", "Betis", "Cádiz", "Celta", "Elche",
   "Espanyol", "Getafe", "Granada", "Levante", "Mallorca", "Osasuna", "Rayo Vallecano", "Real MadridReal",
   "Sociedad", "Sevilla", "Valencia", "Villarreal"]

def teamsBundes : List String :=
  ["1. FC Köln", "1. FC Union Berlin", "1. FSV Mainz 05", "1899 Hoffenheim", "Arminia Bielefeld",
   "Bayer Leverkusen", "Bayern München", "Bor. Mönchengladbach", "Borussia Dortmund", "Eintracht Frankfurt",
   "FC Augsburg", "Hertha BSC", "RB Leipzig", "SC Freiburg", "SpVgg Greuther Fürth", "VfB Stuttgart",
   "VfL Bochum", "VfL Wolfsburg"]

def teamsSeriea : List String :=
  ["Atalanta", "Bologna", "Cagliari", "Empoli", "Fiorentina", "Genoa", "Hellas Verona", "Internazionale",
   "Juventus", "Lazio", "Milan", "Napoli", "Roma", "Salernitana", "Sampdoria", "Sassuolo", "Spezia", "Torino",
   "Udinese", "Venezia"]

def teamsLigue1 : List String :=
  ["Angers", "Bordeaux", "Brest", "Clermont", "Lens", "Lille", "Lorient", "Lyon", "Marseille", "Metz",
   "Monaco", "Montpellier", "Nantes", "Nice", "Paris Saint-Germain", "Reims", "Rennes", "Saint-Étienne",
   "Strasbourg", "Troyes"]

def arrEplLogoStr : List String :=
  ["epl_arsenal", "epl_astonvilla", "epl_brentford", "epl_brighton", "epl_burnley", "epl_chelsea",
   "epl_crystalpalace", "epl_everton", "epl_leeds", "epl_leicestercity", "epl_liverpool",
   "epl_manchestercity", "epl_manchesterunited", "epl_newcastle", "epl_norwich", "epl_southamton",
   "epl_tottenham", "epl_watford", "epl_westham", "epl_wolves"]

def arrLaligaLogoStr : List String :=
  ["laliga_barca", "laliga_alaves", "laliga_athleticbilbao", "laliga_atm", "laliga_betis", "laliga_cadiz",
   "laliga_celta", "laliga_elche", "laliga_espanyol", "laliga_getafe", "laliga_granada", "laliga_levante",
   "laliga_mallorca", "laliga_osasuna", "laliga_rayovallecano", "laliga_realmadrid", "laliga_realsociedad",
   "laliga_sevilla", "laliga_valencia", "laliga_villareal"]

def arrBundesLogoStr : List String :=
  ["bundes_koln", "bundes_unionberlin", "bundes_mainz", "bundes_hoffenheim", "bundes_arminia",
   "bundes_leverkusen", "bundes_bayern", "bundes_borussiamonchengladbach", "bundes_dortmund",
   "bundes_frankfurt", "bundes_augsburg", "bundes_herthabsc", "bundes_rbleipzig", "bundes_scfreiburg",
   "bundes_greutherfurth", "bundes_vfbstuttgart", "bundes_vflbochum", "bundes_vflwolfsburg"]

def arrSerieLogoStr : List String :=
  ["seriea_genoa", "seriea_atalanta", "seriea_bologna", "seriea_cagliari", "seriea_empoli",
   "seriea_fiorentina", "seriea_hellasverona", "seriea_internazionale", "seriea_juve", "seriea_lazio",
   "seriea_milan", "seriea_napoli", "seriea_roma", "seriea_salernitana", "seriea_sampdoria",
   "seriea_sassuolo", "seriea_spezia", "seriea_torino", "seriea_udinese", "seriea_venezia"]

def arrLigue1LogoStr : List String :=
  ["ligue1_angers", "ligue1_bordeaux", "ligue1_brest", "ligue1_clermont", "ligue1_lens", "ligue1_lille",
   "ligue1_lorient", "ligue1_lyon", "ligue1_marseille", "ligue1_metz", "ligue1_monaco", "ligue1_montpellier",
   "ligue1_nantes", "ligue1_nice", "ligue1_psg", "ligue1_reims", "ligue1_rennes", "ligue1_saintetienne",
   "ligue1_strasbourg", "ligue1_troyes"]

/-! ### Look-ups -/

/-- `ArrayList.get` -/
def elementAt {α : Type} (l : List α) (pos : ℤ) : Option α := if 0 ≤ pos then l[pos.toNat]? else none

/-- The list of the league's teams, `null` for any other number. -/
def titlesOf (league : ℤ) : Option (List String) :=
  match league with
  | 0 => some teamsEpl
  | 1 => some teamsLaliga
  | 2 => some teamsBundes
  | 3 => some teamsSeriea
  | 4 => some teamsLigue1
  | _ => none

/-- The array of the league's logos; there is none with the id `-1`. -/
def logosOf (league : ℤ) : Option (List String) :=
  match league with
  | 0 => some arrEplLogoStr
  | 1 => some arrLaligaLogoStr
  | 2 => some arrBundesLogoStr
  | 3 => some arrSerieLogoStr
  | 4 => some arrLigue1LogoStr
  | _ => none

section Resources

-- `Resources.getIdentifier`, of a name and a type: the ids are the build's
variable (getIdentifier : String → String → ℤ)

/-- `emblemUtil` of `User` and `Post`; `none`: it throws. -/
def emblemUtil (league team : ℤ) : Option ℤ := do
  let arr ← logosOf league
  let logo ← elementAt arr team
  return getIdentifier logo "drawable"

end Resources

end Emblems

open Emblems

section Resources

variable (getIdentifier : String → String → ℤ)

def User.getEmblemForImageView (u : User) : Option ℤ := emblemUtil getIdentifier u.mEmblemLeague u.mEmblemTeam

def Post.getEmblemForImageView (p : Post) : Option ℤ :=
  emblemUtil getIdentifier p.mAuthorEmblemLeagueInt p.mAuthorEmblemTeamInt

def Comment.getAuthorEmblem (c : Comment) : Option ℤ := c.mAuthor.getEmblemForImageView getIdentifier

/-- What is before the first dot. A name of dots alone would throw; there is none in `strings.xml`. -/
def StringUtil.getDrawableIdByString (s : String) : ℤ :=
  getIdentifier (.ofList (s.toList.takeWhile (· ≠ '.'))) "drawble"

end Resources

/-! ### `e_models/adapters/SpinnerAdapter` -/

/-- The adapter; `none` is `null`. -/
structure SpinnerAdapter where
  mItemTitles : Option (List String)
  mItemLogoIds : Option (List ℤ)
deriving DecidableEq

namespace SpinnerAdapter

def getCount (a : SpinnerAdapter) : ℕ :=
  match a.mItemTitles, a.mItemLogoIds with
  | some titles, some logos => if titles.length = logos.length then titles.length else 0
  | _, _ => 0

def getItem (a : SpinnerAdapter) (pos : ℤ) : Option String :=
  match a.mItemTitles, a.mItemLogoIds with
  | some titles, some logos =>
    if 0 ≤ pos ∧ pos < titles.length ∧ pos < logos.length then elementAt titles pos else none
  | _, _ => none

/-- The title and the logo that are drawn, if there are both; `none`: it throws. -/
def getView (a : SpinnerAdapter) (pos : ℤ) : Option (Option (String × ℤ)) := do
  let logos ← a.mItemLogoIds
  let logo ← elementAt logos pos
  return (a.getItem pos).map (·, logo)

end SpinnerAdapter

/-- A spinner with the position that is selected. -/
structure Spinner where
  adapter : SpinnerAdapter
  position : ℤ
deriving DecidableEq

namespace Spinner

/-- The first item is selected, if there is one. -/
def setAdapter (adapter : SpinnerAdapter) : Spinner := ⟨adapter, if 0 < adapter.getCount then 0 else -1⟩

/-- The position is selected and its view asked for. -/
def setSelection (s : Spinner) (pos : ℤ) : Option Spinner :=
  (s.adapter.getView pos).map fun _ => { s with position := pos }

end Spinner

/-- The two spinners of a page. -/
structure EmblemSpinners where
  league : Spinner
  team : Spinner
deriving DecidableEq

namespace EmblemSpinners

/-- The user selects a league, and the page's listener sets the team's spinner. -/
def changeLeague (updateSpinner : ℤ → Option Spinner) (i : ℕ) (sp : EmblemSpinners) : Option EmblemSpinners :=
  if i < sp.league.adapter.getCount then do
    let league ← sp.league.setSelection i
    let team ← updateSpinner i
    return ⟨league, team⟩
  else some sp

/-- The user selects a team. -/
def changeTeam (i : ℕ) (sp : EmblemSpinners) : Option EmblemSpinners :=
  if i < sp.team.adapter.getCount then do
    let team ← sp.team.setSelection i
    return { sp with team }
  else some sp

end EmblemSpinners

section Pages

variable (getIdentifier : String → String → ℤ)

def Emblems.leagueAdapter : SpinnerAdapter :=
  ⟨some leaguesFull, some (leaguesLogoStr.map (StringUtil.getDrawableIdByString getIdentifier))⟩

/-- The lists of `setUpArrays` for the league, `null` for any other number. -/
def Emblems.teamAdapter (league : ℤ) : SpinnerAdapter :=
  ⟨titlesOf league, (logosOf league).map (·.map (StringUtil.getDrawableIdByString getIdentifier))⟩

namespace AuthSignUpProfile

/-- The team's adapter is the first league's, whichever league is selected. -/
def setUpSpinner (leagueIndex teamIndex : ℤ) : Option EmblemSpinners := do
  let mSp_emblem_league ← (Spinner.setAdapter (leagueAdapter getIdentifier)).setSelection leagueIndex
  let mSp_emblem_team ← (Spinner.setAdapter (teamAdapter getIdentifier 0)).setSelection teamIndex
  return ⟨mSp_emblem_league, mSp_emblem_team⟩

def updateSpinner (leagueIndex : ℤ) : Option Spinner :=
  (Spinner.setAdapter (teamAdapter getIdentifier leagueIndex)).setSelection 0

end AuthSignUpProfile

namespace ProfileEditActivity

/-- The team index is not used. -/
def setUpSpinner (leagueIndex _teamIndex : ℤ) : Option EmblemSpinners := do
  let sp_league ← (Spinner.setAdapter (leagueAdapter getIdentifier)).setSelection leagueIndex
  return ⟨sp_league, Spinner.setAdapter (teamAdapter getIdentifier leagueIndex)⟩

/-- What `onCreate` does with the spinners. -/
def createSpinners (mUser : User) : Option EmblemSpinners := do
  let sp ← setUpSpinner getIdentifier mUser.mEmblemLeague mUser.mEmblemTeam
  let sp_team ← sp.team.setSelection mUser.mEmblemTeam
  return { sp with team := sp_team }

def updateSpinner (mUser : User) (leagueIndex : ℤ) : Option Spinner := do
  let sp_team := Spinner.setAdapter (teamAdapter getIdentifier leagueIndex)
  let itemTitles ← titlesOf leagueIndex
  if mUser.mEmblemTeam > itemTitles.length then sp_team.setSelection 0
  else sp_team.setSelection mUser.mEmblemTeam

end ProfileEditActivity

end Pages

/-! ### The bound -/

namespace Emblems

def teamCount (league : ℤ) : ℕ := ((logosOf league).getD []).length

/-- The team is one of the league's. -/
def HasTeam (league team : ℤ) : Prop := 0 ≤ team ∧ team < teamCount league

instance (league team : ℤ) : Decidable (HasTeam league team) := inferInstanceAs (Decidable (_ ∧ _))

theorem elementAt_isSome_iff {α : Type} {l : List α} {pos : ℤ} :
    (elementAt l pos).isSome ↔ 0 ≤ pos ∧ pos < l.length := by
  unfold elementAt
  split
  · rename_i hpos
    rw [Option.isSome_iff_ne_none, ne_eq, List.getElem?_eq_none_iff]
    omega
  · rename_i hpos
    simp [hpos]

/-- As many titles as logos. -/
theorem length_titlesOf (league : ℤ) : (titlesOf league).map List.length = (logosOf league).map List.length := by
  unfold titlesOf logosOf
  split <;> rfl

theorem titlesOf_eq_some {league : ℤ} {titles : List String} (h : titlesOf league = some titles) :
    titles.length = teamCount league := by
  have hlen := length_titlesOf league
  rw [h] at hlen
  unfold teamCount
  cases hl : logosOf league with
  | none => simp [hl] at hlen
  | some logos => simpa [hl] using hlen

/-- The leagues are those of the first spinner. -/
theorem isSome_logosOf_iff {league : ℤ} : (logosOf league).isSome ↔ 0 ≤ league ∧ league < 5 := by
  by_cases h : 0 ≤ league ∧ league < 5
  · refine iff_of_true ?_ h
    obtain ⟨h0, h5⟩ := h
    interval_cases league <;> rfl
  · refine iff_of_false ?_ h
    unfold logosOf
    split <;> first | omega | simp

theorem isSome_titlesOf_iff {league : ℤ} : (titlesOf league).isSome ↔ 0 ≤ league ∧ league < 5 := by
  rw [← isSome_logosOf_iff, ← Option.isSome_map (f := List.length), length_titlesOf, Option.isSome_map]

theorem teamCount_pos {league : ℤ} (h : 0 ≤ league ∧ league < 5) : 0 < teamCount league := by
  obtain ⟨h0, h5⟩ := h
  interval_cases league <;> decide

theorem HasTeam.league {league team : ℤ} (h : HasTeam league team) : 0 ≤ league ∧ league < 5 := by
  obtain ⟨h0, hteam⟩ := h
  unfold teamCount at hteam
  cases hl : logosOf league with
  | none =>
    simp only [hl, Option.getD_none, List.length_nil] at hteam
    omega
  | some logos => exact isSome_logosOf_iff.mp (Option.isSome_of_eq_some hl)

section Resources

variable {getIdentifier : String → String → ℤ} {league team pos : ℤ}

/-- **An emblem is drawn exactly when** its team is one of its league's. -/
theorem emblemUtil_isSome_iff : (emblemUtil getIdentifier league team).isSome ↔ HasTeam league team := by
  unfold emblemUtil HasTeam teamCount
  cases hl : logosOf league with
  | none =>
    refine iff_of_false (by simp) ?_
    rintro ⟨h0, hteam⟩
    simp only [Option.getD_none, List.length_nil] at hteam
    omega
  | some logos =>
    rw [Option.getD_some, ← elementAt_isSome_iff]
    cases hlogo : elementAt logos team <;> simp [hlogo]

theorem getView_isSome_iff {a : SpinnerAdapter} :
    (a.getView pos).isSome ↔ ∃ logos, a.mItemLogoIds = some logos ∧ 0 ≤ pos ∧ pos < logos.length := by
  unfold SpinnerAdapter.getView
  cases a.mItemLogoIds with
  | none => simp
  | some logos =>
    simp only [Option.bind_eq_bind, Option.bind_some, Option.isSome_bind, Option.some.injEq, exists_eq_left',
      ← elementAt_isSome_iff]
    cases elementAt logos pos <;> simp

/-- **A team's view is drawn exactly when** the team is one of the league's. -/
theorem getView_teamAdapter : ((teamAdapter getIdentifier league).getView pos).isSome ↔ HasTeam league pos := by
  rw [getView_isSome_iff]
  unfold teamAdapter HasTeam teamCount
  cases logosOf league with
  | none =>
    simp only [Option.map_none, Option.getD_none, List.length_nil]
    constructor
    · rintro ⟨_, h, _⟩
      cases h
    · omega
  | some logos => simp

theorem getView_leagueAdapter : ((leagueAdapter getIdentifier).getView pos).isSome ↔ 0 ≤ pos ∧ pos < 5 := by
  rw [getView_isSome_iff]
  unfold leagueAdapter
  simp [leaguesLogoStr]

theorem getCount_leagueAdapter : (leagueAdapter getIdentifier).getCount = 5 := rfl

theorem getCount_teamAdapter : (teamAdapter getIdentifier league).getCount = teamCount league := by
  have hlen := length_titlesOf league
  unfold SpinnerAdapter.getCount teamAdapter teamCount
  cases ht : titlesOf league with
  | none =>
    cases hl : logosOf league with
    | none => rfl
    | some logos => simp [ht, hl] at hlen
  | some titles =>
    cases hl : logosOf league with
    | none => simp [ht, hl] at hlen
    | some logos =>
      have heq : titles.length = logos.length := by simpa [ht, hl] using hlen
      simp [heq]

theorem setSelection_eq_some {s : Spinner} (h : (s.adapter.getView pos).isSome) :
    s.setSelection pos = some { s with position := pos } := by
  obtain ⟨v, hv⟩ := Option.isSome_iff_exists.mp h
  unfold Spinner.setSelection
  rw [hv]
  rfl

theorem setSelection_eq_none {s : Spinner} (h : ¬ (s.adapter.getView pos).isSome) : s.setSelection pos = none := by
  unfold Spinner.setSelection
  rw [Option.not_isSome_iff_eq_none.mp h]
  rfl

end Resources

/-- The spinners show the team of the league. -/
structure Shows (getIdentifier : String → String → ℤ) (sp : EmblemSpinners) : Prop where
  league : sp.league.adapter = leagueAdapter getIdentifier
  team : sp.team.adapter = teamAdapter getIdentifier sp.league.position
  hasTeam : HasTeam sp.league.position sp.team.position

end Emblems

section Pages

variable {getIdentifier : String → String → ℤ} {league team : ℤ}

theorem setSelection_league {s : Spinner} (hs : s.adapter = leagueAdapter getIdentifier)
    (h : 0 ≤ league ∧ league < 5) : s.setSelection league = some ⟨leagueAdapter getIdentifier, league⟩ := by
  rw [setSelection_eq_some (hs ▸ getView_leagueAdapter.mpr h), hs]

theorem setSelection_team {s : Spinner} (hs : s.adapter = teamAdapter getIdentifier league) (h : HasTeam league team) :
    s.setSelection team = some ⟨teamAdapter getIdentifier league, team⟩ := by
  rw [setSelection_eq_some (hs ▸ getView_teamAdapter.mpr h), hs]

namespace AuthSignUpProfile

theorem setUpSpinner_eq {league team : ℤ} (h : 0 ≤ league ∧ league < 5) (hteam : HasTeam 0 team) :
    setUpSpinner getIdentifier league team =
      some ⟨⟨leagueAdapter getIdentifier, league⟩, ⟨teamAdapter getIdentifier 0, team⟩⟩ := by
  unfold setUpSpinner
  rw [setSelection_league rfl h, setSelection_team rfl hteam]
  rfl

/-- Every league has a first team. -/
theorem updateSpinner_eq (h : 0 ≤ league ∧ league < 5) :
    updateSpinner getIdentifier league = some ⟨teamAdapter getIdentifier league, 0⟩ := by
  have hcount := teamCount_pos h
  exact setSelection_team rfl ⟨le_rfl, by exact_mod_cast hcount⟩

end AuthSignUpProfile

namespace ProfileEditActivity

theorem createSpinners_eq {u : User} (h : HasTeam u.mEmblemLeague u.mEmblemTeam) :
    createSpinners getIdentifier u = some ⟨⟨leagueAdapter getIdentifier, u.mEmblemLeague⟩,
      ⟨teamAdapter getIdentifier u.mEmblemLeague, u.mEmblemTeam⟩⟩ := by
  unfold createSpinners setUpSpinner
  rw [setSelection_league rfl h.league]
  simp only [Option.bind_eq_bind, Option.bind_some, Option.pure_def]
  rw [setSelection_team rfl h]
  rfl

/-- **The team is set again exactly when** its position is not the number of teams. -/
theorem updateSpinner_eq {u : User} (hleague : 0 ≤ league ∧ league < 5) (h0 : 0 ≤ u.mEmblemTeam) :
    (u.mEmblemTeam = teamCount league ∧ updateSpinner getIdentifier u league = none) ∨
      u.mEmblemTeam ≠ teamCount league ∧
        ∃ pos, HasTeam league pos ∧
          updateSpinner getIdentifier u league = some ⟨teamAdapter getIdentifier league, pos⟩ := by
  have hcount := teamCount_pos hleague
  obtain ⟨titles, htitles⟩ := Option.isSome_iff_exists.mp (isSome_titlesOf_iff.mpr hleague)
  have hlen := titlesOf_eq_some htitles
  unfold updateSpinner
  simp only [htitles, Option.bind_eq_bind, Option.bind_some, hlen]
  rcases lt_trichotomy u.mEmblemTeam (teamCount league) with hlt | heq | hgt
  · refine .inr ⟨hlt.ne, u.mEmblemTeam, ⟨h0, hlt⟩, ?_⟩
    rw [if_neg (not_lt.mpr hlt.le)]
    exact setSelection_team rfl ⟨h0, hlt⟩
  · refine .inl ⟨heq, ?_⟩
    rw [if_neg (not_lt.mpr heq.le)]
    exact setSelection_eq_none fun h => absurd (getView_teamAdapter.mp h).2 (by omega)
  · have hfirst : HasTeam league 0 := ⟨le_rfl, by exact_mod_cast hcount⟩
    refine .inr ⟨hgt.ne', 0, hfirst, ?_⟩
    rw [if_pos hgt]
    exact setSelection_team rfl hfirst

end ProfileEditActivity

namespace Emblems

variable {sp : EmblemSpinners} {i : ℕ}

theorem Shows.changeTeam (h : Shows getIdentifier sp) :
    ∃ sp', sp.changeTeam i = some sp' ∧ Shows getIdentifier sp' := by
  unfold EmblemSpinners.changeTeam
  split
  · rename_i hi
    rw [h.team, getCount_teamAdapter] at hi
    have hteam : HasTeam sp.league.position i := ⟨by omega, by exact_mod_cast hi⟩
    rw [setSelection_team h.team hteam]
    exact ⟨_, rfl, h.league, rfl, hteam⟩
  · exact ⟨sp, rfl, h⟩

/-- The spinners go on showing a team when the listener sets one of the league's. -/
theorem Shows.changeLeague {updateSpinner : ℤ → Option Spinner} (h : Shows getIdentifier sp)
    (hteam : i < 5 → ∃ pos, HasTeam i pos ∧ updateSpinner i = some ⟨teamAdapter getIdentifier i, pos⟩) :
    ∃ sp', sp.changeLeague updateSpinner i = some sp' ∧ Shows getIdentifier sp' := by
  unfold EmblemSpinners.changeLeague
  split
  · rename_i hi
    rw [h.league, getCount_leagueAdapter] at hi
    obtain ⟨pos, hpos, hupdate⟩ := hteam hi
    rw [setSelection_league h.league ⟨by omega, by omega⟩, hupdate]
    exact ⟨_, rfl, rfl, rfl, hpos⟩
  · exact ⟨sp, rfl, h⟩

theorem Shows.changeLeague_throws {updateSpinner : ℤ → Option Spinner} (h : Shows getIdentifier sp) (hi : i < 5)
    (hnone : updateSpinner i = none) : sp.changeLeague updateSpinner i = none := by
  have hcount : i < sp.league.adapter.getCount := by
    rw [h.league, getCount_leagueAdapter]
    exact hi
  unfold EmblemSpinners.changeLeague
  rw [if_pos hcount, setSelection_league h.league ⟨by omega, by omega⟩, hnone]
  rfl

end Emblems

end Pages

end FootballGallery
