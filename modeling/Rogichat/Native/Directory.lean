import Rogichat.Android.Directory
import Rogichat.Ios.Directory

/-!
# The room directory of both native stores

The two stores were written apart; each is shown to keep the same contract
(`Ios.DirectorySound`, `Android.DirectorySound`), and here they stand together.
-/

namespace Rogichat

open Lib

/-- Both stores keep their directory and what hangs on it. -/
theorem native_directory : Ios.DirectorySound ∧ Android.DirectorySound :=
  ⟨Ios.directory_sound, Android.directory_sound⟩

/-! ## A manifest of two pages -/

namespace Native

/-- The account of the Android run. -/
def login : Android.RoomsAccountScope := ⟨1, 1, 5⟩

def member (room : Uuid) : Android.Membership := ⟨room, 0, .group, 2, .member, 3, 4⟩

/-- The first page of its listing. -/
def firstPage : Android.ManifestPage where
  rooms := [member 1]
  generation := 9
  complete := false
  next := some 7
  ends := by decide
  advances := by decide

theorem lastPage_ends : (true = true) ↔ ((none : Option Android.Token) = none) := by decide

/-- The last page of its listing. -/
def lastPage : Android.ManifestPage where
  rooms := [member 2]
  generation := 9
  complete := true
  next := none
  ends := lastPage_ends
  advances := by decide

/-- A manifest of two pages, read to its end. -/
def listing : List Android.StoreCommand :=
  [.begin_ login 20,
    .manifest login ⟨0, 20⟩ none (.success firstPage) 21,
    .manifest login ⟨0, 20⟩ (some 7) (.success lastPage) 21]

theorem listed : ∃ w, Android.directory.Reachable w ∧
    w.db.memberships.rows = [member 1, member 2] := by
  have hstart : Android.directory.Reachable ⟨{}, [], [], fun _ => []⟩ := .init rfl
  obtain ⟨s, hs⟩ : ∃ s, (listing[0]).exec {} = .ok s := ⟨_, rfl⟩
  have hbegun := System.Reachable.step (S := Android.directory) hstart ⟨s, hs, rfl⟩
  obtain ⟨t, ht⟩ : ∃ t, (listing[1]).exec s = .ok t := by
    cases hs
    exact ⟨_, rfl⟩
  have hfirst := hbegun.step (S := Android.directory) ⟨t, ht, rfl⟩
  obtain ⟨u, hu⟩ : ∃ u, (listing[2]).exec t = .ok u := by
    cases hs
    cases ht
    exact ⟨_, rfl⟩
  refine ⟨_, hfirst.step (S := Android.directory) ⟨u, hu, rfl⟩, ?_⟩
  cases hs
  cases ht
  cases hu
  rfl

/-! ## A manifest that changes a revision -/

/-- The store of the iOS run. -/
def phone : Ios.RoomsDatabase := ⟨⟨5, 6⟩, 7⟩

/-- The room, as a member sees it under a revision. -/
def lounge (revision : Ios.Token) : Ios.MembershipRoom := ⟨1, 0, .group, 2, .member, 3, revision⟩

/-- The lounge as it is opened. -/
def loungeScope : Ios.ConversationScope := ⟨phone.scope, lounge 4, 8, 9, 7, 10⟩

/-- The only page of a manifest. -/
def onlyPage (revision : Ios.Token) : Ios.MembershipPage where
  resetRequired := false
  rooms := [lounge revision]
  generation := some 12
  complete := true
  nextCursor := none
  distinct := List.nodup_singleton _
  reset h := absurd h (by decide)
  page _ := by simp

def hello : Ios.ConversationMessage where
  id := 40
  version := .one
  createdAt := 41
  audience := .shared
  author := .member 45 46 none
  content := .text (some 47)

/-- The answer the member is about to send. -/
def reply : Ios.TextCommand where
  id := 30
  roomID := 1
  membershipScope := 3
  intent := .shared
  text := 31

/-- A room is listed and opened, a message is stored and another one waits to be sent; then a
second manifest is begun. -/
def stored : List (Ios.RoomsDatabase × Ios.StoreCommand) :=
  [.open_, .beginManifest 10 11, .manifestPage (onlyPage 4) ⟨10, 7, 11, none⟩ 12 13,
    .beginConversation 1 10 8 9,
    .conversation loungeScope (.applySnapshot ⟨3, 4, [hello], 20, none⟩),
    .conversation loungeScope (.admitText reply), .beginManifest 20 21].map (Prod.mk phone)

/-- The page that ends the second manifest lists the room under another revision. -/
def revised : Ios.RoomsDatabase × Ios.StoreCommand :=
  (phone, .manifestPage (onlyPage 5) ⟨20, 7, 21, none⟩ 22 23)

/-- A step of the watched iOS store, as a function. -/
def watch (o : Ios.RoomsDatabase × Ios.StoreCommand) (w : Ios.Watched) : Option Ios.Watched :=
  (o.2.exec o.1 w.db).toOption.map (w.after o.2)

/-- A command that goes through is a step. -/
theorem watch_step {o : Ios.RoomsDatabase × Ios.StoreCommand} {w w' : Ios.Watched}
    (h : watch o w = some w') : Ios.directory.step o w w' := by
  obtain ⟨t, ht, rfl⟩ := Option.map_eq_some_iff.mp h
  exact ⟨t, toOption_eq_some.mp ht, rfl⟩

end Native

/-- On Android both pages are listed once the second one completes the manifest. On iOS a second
manifest, under another revision, removes the stored message and keeps the one to be sent. -/
theorem native_directory_listed :
    (∃ w, Android.directory.Reachable w ∧
      w.db.memberships.rows = [Native.member 1, Native.member 2] ∧ Paging.Complete w.installed) ∧
    ∃ w w', Ios.directory.Reachable w ∧ Ios.directory.step Native.revised w w' ∧
      w.db.HasPrivate 1 ∧ ¬w'.db.HasPrivate 1 ∧ w'.db.memberships.rows = [Native.lounge 5] ∧
      ∃ r ∈ w'.db.textCommands, r.payload = some Native.reply := by
  constructor
  · obtain ⟨w, hw, hrows⟩ := Native.listed
    refine ⟨w, hw, hrows, ?_⟩
    obtain ⟨hlisted, hnone | hcomplete⟩ := native_directory.2.complete w hw
    · rw [hrows, hnone] at hlisted
      cases hlisted
    · exact hcomplete
  · have hplay : ((System.play Native.watch Native.stored ⟨{}, [], [], fun _ => []⟩).bind fun w =>
        (Native.watch Native.revised w).map fun w' =>
          (decide (w.db.HasPrivate 1), w.writers 1, w.db.textCommands.rows.map fun r =>
            (r.room, r.membership, r.phase, r.payload), w'.db.memberships.rows)) =
        some (true, [(3, 4), (3, 4)], [(1, 3, .queued, some Native.reply)], [Native.lounge 5]) := rfl
    obtain ⟨w, hw, hplay⟩ := Option.bind_eq_some_iff.mp hplay
    obtain ⟨w', hlast, hfacts⟩ := Option.map_eq_some_iff.mp hplay
    simp only [Prod.mk.injEq, decide_eq_true_eq] at hfacts
    obtain ⟨hbefore, hwriters, hwaits, hrows⟩ := hfacts
    have hreach : Ios.directory.Reachable w :=
      (System.Run.of_play (S := Ios.directory) (fun _ _ _ h => Native.watch_step h) hw).reachable
        (.init rfl)
    have hstep := Native.watch_step hlast
    have hpurged := native_directory.1.purged w _ w' hreach hstep rfl
    have hlounge : ∀ m, m ∈ w'.db.memberships ↔ m = Native.lounge 5 := by
      intro m
      rw [← Table.mem_rows, hrows, List.mem_singleton]
    refine ⟨w, w', hreach, hstep, hbefore, fun hprivate => ?_, hrows, ?_⟩
    · -- what were left of the room would stand under the revision the room is listed with
      obtain ⟨m, hm, -, hscope⟩ := hpurged.rows 1 hprivate
      obtain rfl := (hlounge m).mp hm
      obtain ⟨t, -, rfl⟩ := hstep
      have hwritten : (3, 4) ∈ (w.after Native.revised.2 t).writers 1 := by
        have hsame : (w.after Native.revised.2 t).writers 1 = [] ++ w.writers 1 := if_pos hprivate
        rw [hsame, hwriters]
        decide
      have hrevision := hscope _ hwritten
      cases hrevision
    · obtain ⟨r, hr, hrow⟩ := List.mem_map.mp (hwaits ▸ List.mem_singleton_self _)
      simp only [Prod.mk.injEq] at hrow
      obtain ⟨hroom, hmembership, hphase, hpayload⟩ := hrow
      exact ⟨r, hpurged.unresolved r (Table.mem_rows.mp hr) (.inl hphase)
        ⟨Native.lounge 5, (hlounge _).mpr rfl, hroom.symm, hmembership.symm⟩, hpayload⟩

end Rogichat
