import Webshell.ProcScan
import Webshell.Text

/-!
# The two scans agree

What the script prints for a process is read back as what `/proc` says of it,
unless a tab or a line end stands in one of its paths. The processes that the host
leaves out are in no foreground group that is looked at.
-/

namespace Webshell

open GoBytes

/-! ## A process is read back -/

theorem digit_of_value {base : Nat} : ∀ {s : Str} {v w : Nat}, s.foldlM (fun value b =>
    if 48 ≤ b.toNat ∧ b.toNat < 48 + base then some (value * base + (b.toNat - 48)) else none) v = some w →
      ∀ b ∈ s, 48 ≤ b.toNat ∧ b.toNat < 48 + base
  | [], _, _, _ => nofun
  | c :: s, v, w, h => by
    rw [List.foldlM_cons] at h
    by_cases hc : 48 ≤ c.toNat ∧ c.toNat < 48 + base
    · rw [if_pos hc] at h
      exact List.forall_mem_cons.mpr ⟨hc, digit_of_value h⟩
    · rw [if_neg hc] at h
      cases h

namespace ProcEntry

variable (e : ProcEntry)

theorem name_ne_nil : e.name ≠ [] := by
  intro h
  have := e.named
  rw [h] at this
  cases this

theorem name_digits : ∀ b ∈ e.name, 48 ≤ b.toNat ∧ b.toNat < 58 := by
  have h := e.named
  unfold digitsValue at h
  rw [if_neg e.name_ne_nil] at h
  exact digit_of_value h

theorem not_mem_name {b : UInt8} (hb : ¬(48 ≤ b.toNat ∧ b.toNat < 58)) : b ∉ e.name := fun h => hb (e.name_digits b h)

theorem parseInt64_name : parseInt64 e.name = some (e.pid : Int) := by
  obtain ⟨b, rest, hname⟩ := List.exists_cons_of_ne_nil e.name_ne_nil
  have hb := e.name_digits b (by rw [hname]; exact List.mem_cons_self ..)
  have hminus : b ≠ 45 := by rintro rfl; exact absurd hb.1 (by decide)
  have hplus : b ≠ 43 := by rintro rfl; exact absurd hb.1 (by decide)
  have hvalue := e.named
  have hlt := e.bounded
  rw [hname] at hvalue ⊢
  unfold parseInt64
  simp only
  rw [if_neg hminus, if_neg hplus, hvalue]
  rw [Option.filter_some, if_pos (decide_eq_true hlt)]
  rfl

theorem isProcPIDDirName_name : isProcPIDDirName e.name = true := by
  unfold isProcPIDDirName
  rw [Bool.and_eq_true, List.all_eq_true]
  refine ⟨decide_eq_true e.name_ne_nil, fun b hb => ?_⟩
  have h := e.name_digits b hb
  rw [Bool.and_eq_true, decide_eq_true_eq, decide_eq_true_eq, UInt8.le_iff_toNat_le, UInt8.le_iff_toNat_le]
  exact ⟨h.1, Nat.le_of_lt_succ h.2⟩

end ProcEntry

/-- A byte of no unit keeps the units from what begins with it. -/
theorem noUnit_cons {units : List Str} (hu : ∀ unit ∈ units, unit ≠ []) {b : UInt8} (hb : ∀ unit ∈ units, b ∉ unit) (s : Str) :
    NoUnit units (b :: s) := by
  intro unit hm hfront
  cases unit with
  | nil => exact hu _ hm rfl
  | cons c unit =>
    obtain ⟨rfl, -⟩ := List.cons_prefix_cons.mp hfront
    exact hb _ hm (List.mem_cons_self ..)

theorem digit_no_space : ∀ n < 10, ∀ unit ∈ spaces, UInt8.ofNat (48 + n) ∉ unit := by decide

theorem digit_not_mem {b : UInt8} (h : 48 ≤ b.toNat ∧ b.toNat < 58) : ∀ unit ∈ spaces, b ∉ unit := by
  have := digit_no_space (b.toNat - 48) (by omega)
  rw [Nat.add_sub_cancel' h.1, UInt8.ofNat_toNat] at this
  exact this

theorem digit_not_mem_reverse {b : UInt8} (h : 48 ≤ b.toNat ∧ b.toNat < 58) : ∀ unit ∈ spaces.map List.reverse, b ∉ unit := by
  intro unit hm
  obtain ⟨space, hs, rfl⟩ := List.mem_map.mp hm
  rw [List.mem_reverse]
  exact digit_not_mem h space hs

theorem trimLeftSpace_digit {b : UInt8} (h : 48 ≤ b.toNat ∧ b.toNat < 58) (s : Str) : trimLeftSpace (b :: s) = b :: s :=
  dropUnits_of_noUnit (noUnit_cons (by decide) (digit_not_mem h) s) _

namespace ProcEntry

variable (e : ProcEntry)

/-- The front of the line of a `stat` file is no space and stays. -/
theorem trimSpace_stat : ∃ rest, trimSpace e.stat = e.name ++ 32 :: 40 :: (statName e.comm ++ 41 :: rest) := by
  obtain ⟨b, name, hname⟩ := List.exists_cons_of_ne_nil e.name_ne_nil
  have hb := e.name_digits b (by rw [hname]; exact List.mem_cons_self ..)
  have hleft : trimLeftSpace e.stat = e.stat := by
    unfold stat
    rw [hname]
    exact trimLeftSpace_digit hb _
  obtain ⟨front, hright⟩ := dropUnits_append (show ∀ unit ∈ spaces.map List.reverse, 41 ∉ unit by decide)
    (e.name ++ [32, 40] ++ statName e.comm).reverse e.stat.length (e.fields ++ [10]).reverse
  refine ⟨front.reverse, ?_⟩
  have hreverse : e.stat.reverse = (e.fields ++ [10]).reverse ++ 41 :: (e.name ++ [32, 40] ++ statName e.comm).reverse := by
    unfold stat
    simp
  unfold trimSpace trimRightSpace
  rw [hleft, hreverse, hright]
  simp

theorem trimSpace_name : trimSpace (e.name ++ [32]) = e.name := by
  obtain ⟨b, name, hname⟩ := List.exists_cons_of_ne_nil e.name_ne_nil
  have hb := e.name_digits b (by rw [hname]; exact List.mem_cons_self ..)
  have hlast := e.name_digits (e.name.getLast e.name_ne_nil) (List.getLast_mem _)
  have hreverse : e.name.reverse = e.name.getLast e.name_ne_nil :: e.name.dropLast.reverse := by
    conv => lhs; rw [← List.dropLast_append_getLast e.name_ne_nil, List.reverse_append]
    rfl
  have hdrop (n : Nat) : dropUnits (spaces.map List.reverse) n e.name.reverse = e.name.reverse := by
    rw [hreverse]
    exact dropUnits_of_noUnit (noUnit_cons (by decide) (digit_not_mem_reverse hlast) _) n
  have hleft : trimLeftSpace (e.name ++ [32]) = e.name ++ [32] := by
    rw [hname]
    exact trimLeftSpace_digit hb _
  unfold trimSpace trimRightSpace
  rw [hleft, List.reverse_append, List.length_append, List.reverse_singleton, List.singleton_append]
  show (dropUnits (spaces.map List.reverse) e.name.length e.name.reverse).reverse = e.name
  rw [hdrop, List.reverse_reverse]

/-- The number in a `stat` file is the directory's. -/
theorem parseProcStat_pid {info : ProcInfo} (h : parseProcStat e.stat = some info) : info.PID = e.pid := by
  obtain ⟨rest, htrim⟩ := e.trimSpace_stat
  have hnot : ∀ b ∈ e.name ++ [32], b ≠ 40 := by
    intro b hb
    rcases List.mem_append.mp hb with hb | hb
    · rintro rfl
      exact e.not_mem_name (by decide) hb
    · rw [List.mem_singleton.mp hb]
      decide
  have hcut : cutFirst 40 (trimSpace e.stat) = some (e.name ++ [32], statName e.comm ++ 41 :: rest) := by
    rw [htrim, show e.name ++ 32 :: 40 :: (statName e.comm ++ 41 :: rest) =
      (e.name ++ [32]) ++ 40 :: (statName e.comm ++ 41 :: rest) by simp]
    unfold cutFirst
    rw [if_pos (by simp), List.takeWhile_append_of_pos (by simpa using hnot), List.dropWhile_append_of_pos (by simpa using hnot)]
    simp
  unfold parseProcStat at h
  rw [hcut] at h
  simp only at h
  have hvalue : atoiValue (trimSpace (e.name ++ [32])) = e.pid := by
    rw [e.trimSpace_name]
    unfold atoiValue
    rw [e.parseInt64_name]
  rw [hvalue] at h
  repeat' split at h
  all_goals cases h
  rfl

/-! ## A line is read back -/

def complete (info : ProcInfo) : ProcInfo :=
  { info with FD0 := readProcLink e.fd0, Cmd := e.readProcCmdline, CWD := readProcLink e.cwd }

/-- What a process is, all of it read. -/
def info : Option ProcInfo := if e.gone then none else (parseProcStat e.stat).map e.complete

end ProcEntry

/-- A path the script prints as it is: without the line ends it ends with, there is no tab and no line end in it. -/
def PlainPath (path : Str) : Prop := 9 ∉ substituted path ∧ 10 ∉ substituted path

/-- The paths of a process are printed as they are. -/
structure ProcEntry.Plain (e : ProcEntry) : Prop where
  fd0 : ∀ path ∈ e.fd0, PlainPath path
  cwd : ∀ path ∈ e.cwd, PlainPath path

theorem substituted_newline (s : Str) : substituted (s ++ [10]) = substituted s :=
  List.rdropWhile_concat_pos _ _ _ (by decide)

theorem substituted_of_not_mem {s : Str} (h : 10 ∉ s) : substituted s = s := by
  unfold substituted
  rw [List.rdropWhile_eq_self_iff]
  intro hne hlast
  exact h (by simpa using (of_decide_eq_true hlast) ▸ List.getLast_mem hne)

theorem splitN_cons {b : UInt8} {a : Str} (h : b ∉ a) (n : Nat) (rest : Str) :
    splitN b (n + 2) (a ++ b :: rest) = a :: splitN b (n + 1) rest := by
  have ha : ∀ c ∈ a, decide (c ≠ b) = true := fun c hc => decide_eq_true fun he => h (he ▸ hc)
  rw [splitN, if_pos (by simp), List.takeWhile_append_of_pos ha, List.dropWhile_append_of_pos ha]
  simp

namespace ProcEntry

variable (e : ProcEntry)

theorem spaced_plain (data : Str) : 9 ∉ spaced data ∧ 10 ∉ spaced data := by
  have hb (c : UInt8) (hc : c = 9 ∨ c = 10) : c ∉ spaced data := by
    intro hm
    obtain ⟨b, -, heq⟩ := List.mem_map.mp hm
    by_cases hsp : b = 0 ∨ b = 9 ∨ b = 10 ∨ b = 13
    · rw [if_pos hsp] at heq
      rcases hc with rfl | rfl <;> cases heq
    · rw [if_neg hsp] at heq
      subst heq
      rcases hc with rfl | rfl <;> exact hsp (by decide)
  exact ⟨hb 9 (.inl rfl), hb 10 (.inr rfl)⟩

/-- The command line as the script prints it. -/
def printedCmd : Str := substituted ((e.cmdline.map spaced).getD [])

theorem printedCmd_plain : 9 ∉ e.printedCmd ∧ 10 ∉ e.printedCmd ∧ trimSpace e.printedCmd = e.readProcCmdline := by
  unfold printedCmd readProcCmdline
  cases e.cmdline with
  | none => exact ⟨List.not_mem_nil, List.not_mem_nil, rfl⟩
  | some data =>
    obtain ⟨htab, hline⟩ := spaced_plain data
    simp only [Option.map_some, Option.getD_some]
    rw [substituted_of_not_mem hline]
    exact ⟨htab, hline, rfl⟩

theorem readlink_plain {target : Option Str} (h : ∀ path ∈ target, PlainPath path) :
    9 ∉ readlink target ∧ 10 ∉ readlink target := by
  unfold readlink
  cases target with
  | none => exact ⟨List.not_mem_nil, List.not_mem_nil⟩
  | some path =>
    simp only [Option.map_some, Option.getD_some]
    rw [substituted_newline]
    exact h path rfl

theorem trimSpace_readlink (target : Option Str) : trimSpace (readlink target) = readProcLink target := by
  unfold readlink readProcLink
  cases target with
  | none => rfl
  | some path =>
    simp only [Option.map_some, Option.getD_some]
    rw [substituted_newline]
    exact trimSpace_rdropWhile path

theorem statName_line (comm : Str) : 10 ∉ statName comm := by
  intro h
  obtain ⟨b, -, hb⟩ := List.mem_flatMap.mp h
  by_cases h10 : b = 10
  · rw [if_pos h10] at hb
    revert hb
    decide
  · rw [if_neg h10] at hb
    split at hb
    · revert hb
      decide
    · exact h10 (List.mem_singleton.mp hb).symm

/-- The line of the `stat` file. -/
theorem substituted_stat : substituted e.stat = e.name ++ [32, 40] ++ statName e.comm ++ 41 :: e.fields ∧
    10 ∉ substituted e.stat := by
  have hline : 10 ∉ e.name ++ [32, 40] ++ statName e.comm ++ 41 :: e.fields := by
    have hname := e.not_mem_name (b := 10) (by decide)
    have hcomm := statName_line e.comm
    have hfields := e.oneLine
    simp [hname, hcomm, hfields]
  have heq : substituted e.stat = e.name ++ [32, 40] ++ statName e.comm ++ 41 :: e.fields := by
    unfold stat
    rw [substituted_newline, substituted_of_not_mem hline]
  exact ⟨heq, by rw [heq]; exact hline⟩

theorem parseProcStat_substituted : parseProcStat (substituted e.stat) = parseProcStat e.stat := by
  unfold parseProcStat substituted
  rw [trimSpace_rdropWhile]

/-- The line of a process, without its end. -/
def printed : Str :=
  [80] ++ 9 :: e.name ++ 9 :: readlink e.fd0 ++ 9 :: readlink e.cwd ++ 9 :: e.printedCmd ++ 9 :: substituted e.stat

theorem parseProcScanLine_printed (h : e.Plain) (hg : e.gone = false) : parseProcScanLine e.printed = e.info := by
  have hfd0 := (readlink_plain h.fd0).1
  have hcwd := (readlink_plain h.cwd).1
  have hcmd := e.printedCmd_plain
  have hname := e.not_mem_name (b := 9) (by decide)
  have hsplit : splitN 9 6 e.printed =
      [[80], e.name, readlink e.fd0, readlink e.cwd, e.printedCmd, substituted e.stat] := by
    have hright : e.printed = [80] ++ 9 :: (e.name ++ 9 :: (readlink e.fd0 ++ 9 :: (readlink e.cwd ++
        9 :: (e.printedCmd ++ 9 :: substituted e.stat)))) := by
      unfold printed
      simp only [List.append_assoc, List.cons_append]
    rw [hright, splitN_cons (show (9 : UInt8) ∉ [80] by decide), splitN_cons hname, splitN_cons hfd0, splitN_cons hcwd, splitN_cons hcmd.1, splitN]
  unfold parseProcScanLine info
  rw [if_neg (by simp [printed, List.isPrefixOf]), hsplit, hg]
  simp only [e.parseInt64_name, e.parseProcStat_substituted]
  cases hstat : parseProcStat e.stat with
  | none => rfl
  | some i =>
    simp only [trimSpace_readlink, hcmd.2.2, ← e.parseProcStat_pid hstat]
    rfl

theorem printed_line (h : e.Plain) : 10 ∉ e.printed := by
  have hfd0 := (readlink_plain h.fd0).2
  have hcwd := (readlink_plain h.cwd).2
  have hcmd := e.printedCmd_plain.2.1
  have hname := e.not_mem_name (b := 10) (by decide)
  have hstat := e.substituted_stat.2
  simp [printed, hfd0, hcwd, hcmd, hname, hstat]

end ProcEntry

/-- The output of the script is read back as the processes. -/
theorem procScan_parsed : ∀ {table : List ProcEntry}, (∀ e ∈ table, e.Plain) →
    ((procScan table).splitOn 10).filterMap parseProcScanLine = table.filterMap ProcEntry.info
  | [], _ => rfl
  | e :: table, h => by
    obtain ⟨he, htable⟩ := List.forall_mem_cons.mp h
    have ih := procScan_parsed htable
    have hscan : procScan (e :: table) = e.scanLine ++ procScan table := List.flatMap_cons
    rw [hscan]
    cases hg : e.gone with
    | true =>
      have hline : e.scanLine = [] := by
        unfold ProcEntry.scanLine
        rw [if_pos hg]
      have hinfo : e.info = none := by
        unfold ProcEntry.info
        rw [if_pos hg]
      rw [hline, List.nil_append, ih, List.filterMap_cons_none hinfo]
    | false =>
      have hline : e.scanLine = e.printed ++ [10] := by
        unfold ProcEntry.scanLine
        rw [if_neg (by simp [hg])]
        rfl
      rw [hline, List.append_assoc, List.singleton_append, List.splitOn_append_cons_self_of_not_mem (e.printed_line he),
        List.filterMap_cons, e.parseProcScanLine_printed he hg, ih, List.filterMap_cons]

/-! ## What the host leaves out -/

/-- A process with a terminal that has a foreground group. -/
def ProcInfo.onTerminal (i : ProcInfo) : Bool := i.TTYNr ≠ 0 && 0 < i.TPgid

theorem processes_kept (unique : List Str) (foreground : List (Int × Int)) : ∀ (table : List ProcEntry),
    ((table.filterMap ProcEntry.candidate).filterMap fun c =>
      if isKept unique foreground c.1 then
        some { c.1 with Cmd := c.2.readProcCmdline, CWD := ProcEntry.readProcLink c.2.cwd }
      else none) =
    (table.filterMap ProcEntry.info).filter fun i => i.onTerminal && isKept unique foreground i
  | [] => rfl
  | e :: table => by
    have ih := processes_kept unique foreground table
    have hdir := e.isProcPIDDirName_name
    rw [List.filterMap_cons, List.filterMap_cons]
    unfold ProcEntry.candidate ProcEntry.info
    rw [hdir]
    cases e.gone with
    | true => exact ih
    | false =>
      simp only [Bool.not_true, Bool.false_or, Bool.false_eq_true, if_false]
      cases parseProcStat e.stat with
      | none => exact ih
      | some i =>
        simp only [Option.map_some]
        by_cases hterm : i.TTYNr = 0 ∨ i.TPgid ≤ 0
        · have hoff : (e.complete i).onTerminal = false := by
            unfold ProcInfo.onTerminal ProcEntry.complete
            rcases hterm with h0 | hle
            · simp [h0]
            · simp [Int.not_lt.mpr hle]
          rw [if_pos hterm, List.filter_cons_of_neg (by rw [hoff]; simp)]
          exact ih
        · have hon : (e.complete i).onTerminal = true := by
            rw [not_or, Int.not_le] at hterm
            unfold ProcInfo.onTerminal ProcEntry.complete
            simp [hterm]
          rw [if_neg hterm, List.filterMap_cons]
          have hsame : isKept unique foreground { i with FD0 := ProcEntry.readProcLink e.fd0 } =
            isKept unique foreground (e.complete i) := rfl
          rw [hsame]
          cases hk : isKept unique foreground (e.complete i) with
          | true =>
            rw [List.filter_cons_of_pos (by rw [hon, hk]; rfl)]
            exact congrArg _ ih
          | false =>
            rw [List.filter_cons_of_neg (by rw [hk]; simp)]
            exact ih

/-- The candidate of a process that is on a terminal. -/
theorem candidate_of_info {table : List ProcEntry} {i : ProcInfo} (hi : i ∈ table.filterMap ProcEntry.info)
    (hon : i.onTerminal = true) : ∃ c ∈ table.filterMap ProcEntry.candidate, c.1.FD0 = i.FD0 ∧ c.1.TTYNr = i.TTYNr ∧
      c.1.TPgid = i.TPgid := by
  obtain ⟨e, he, hinfo⟩ := List.mem_filterMap.mp hi
  unfold ProcEntry.info at hinfo
  split at hinfo
  · cases hinfo
  · rename_i hgone
    obtain ⟨j, hj, rfl⟩ := Option.map_eq_some_iff.mp hinfo
    refine ⟨({ j with FD0 := ProcEntry.readProcLink e.fd0 }, e), List.mem_filterMap.mpr ⟨e, he, ?_⟩, rfl, rfl, rfl⟩
    unfold ProcInfo.onTerminal at hon
    simp only [Bool.and_eq_true, decide_eq_true_eq] at hon
    unfold ProcEntry.candidate
    rw [if_neg (by simp [e.isProcPIDDirName_name, hgone]), hj]
    simp only
    rw [if_neg (by rw [not_or, Int.not_le]; exact hon)]

theorem info_of_candidate {table : List ProcEntry} {c : ProcInfo × ProcEntry} (hc : c ∈ table.filterMap ProcEntry.candidate) :
    ∃ i ∈ table.filterMap ProcEntry.info, c.1.TTYNr = i.TTYNr ∧ c.1.TPgid = i.TPgid := by
  obtain ⟨e, he, hcand⟩ := List.mem_filterMap.mp hc
  unfold ProcEntry.candidate at hcand
  split at hcand
  · cases hcand
  · rename_i hgone
    rw [Bool.or_eq_true, not_or] at hgone
    split at hcand
    · cases hcand
    · rename_i j hj
      split at hcand
      · cases hcand
      · cases hcand
        refine ⟨e.complete j, List.mem_filterMap.mpr ⟨e, he, ?_⟩, rfl, rfl⟩
        unfold ProcEntry.info
        rw [if_neg hgone.2, hj]
        rfl

/-- The map has the foreground group of every terminal that a requested process is on. -/
theorem foreground_lookup {unique : List Str} {t g : Int} : ∀ {candidates : List (ProcInfo × ProcEntry)}
    {foreground : List (Int × Int)}, (∀ c ∈ candidates, c.1.TTYNr = t → c.1.TPgid = g) →
    foreground.lookup t = some g ∨ (∃ c ∈ candidates, unique.contains c.1.FD0 = true ∧ c.1.TTYNr = t) →
    (candidates.foldl (fun foreground c =>
      if unique.contains c.1.FD0 then (c.1.TTYNr, c.1.TPgid) :: foreground else foreground) foreground).lookup t = some g
  | [], foreground, _, h => by
    rcases h with h | ⟨c, hc, -⟩
    · exact h
    · cases hc
  | c :: candidates, foreground, hsame, h => by
    obtain ⟨hc, hrest⟩ := List.forall_mem_cons.mp hsame
    rw [List.foldl_cons]
    refine foreground_lookup hrest ?_
    by_cases hin : unique.contains c.1.FD0 = true
    · by_cases ht : c.1.TTYNr = t
      · left
        rw [if_pos hin, List.lookup_cons, ht, beq_self_eq_true, hc ht]
      · rw [if_pos hin, List.lookup_cons, beq_false_of_ne (Ne.symm ht)]
        rcases h with h | ⟨d, hd, hdin, hdt⟩
        · exact .inl h
        · rcases List.mem_cons.mp hd with rfl | hd
          · exact absurd hdt ht
          · exact .inr ⟨d, hd, hdin, hdt⟩
    · rw [if_neg hin]
      rcases h with h | ⟨d, hd, hdin, hdt⟩
      · exact .inl h
      · rcases List.mem_cons.mp hd with rfl | hd
        · exact absurd hdin hin
        · exact .inr ⟨d, hd, hdin, hdt⟩

/-! ## What the activity does not look at -/

theorem findAnchor_some {tty : Str} {p : ProcInfo} : ∀ {processes : List ProcInfo} {anchor : Option ProcInfo},
    findAnchor tty processes anchor = some p →
      anchor = some p ∨ p ∈ processes ∧ p.FD0 = tty ∧ p.TTYNr ≠ 0 ∧ 0 < p.TPgid
  | [], anchor, h => .inl h
  | q :: rest, anchor, h => by
    rw [findAnchor] at h
    split at h
    · rename_i hq
      split at h
      · cases h
        exact .inr ⟨List.mem_cons_self .., hq⟩
      · rcases findAnchor_some h with he | ⟨hm, hp⟩
        · cases he
          exact .inr ⟨List.mem_cons_self .., hq⟩
        · exact .inr ⟨List.mem_cons_of_mem _ hm, hp⟩
    · rcases findAnchor_some h with he | ⟨hm, hp⟩
      · exact .inl he
      · exact .inr ⟨List.mem_cons_of_mem _ hm, hp⟩

theorem findAnchor_filter {tty : Str} {keep : ProcInfo → Bool} : ∀ {processes : List ProcInfo} (anchor : Option ProcInfo),
    (∀ p ∈ processes, p.FD0 = tty → p.TTYNr ≠ 0 → 0 < p.TPgid → keep p = true) →
    findAnchor tty (processes.filter keep) anchor = findAnchor tty processes anchor
  | [], _, _ => rfl
  | p :: rest, anchor, h => by
    obtain ⟨hp, hrest⟩ := List.forall_mem_cons.mp h
    cases hk : keep p with
    | true =>
      rw [List.filter_cons_of_pos hk, findAnchor, findAnchor]
      rw [findAnchor_filter _ hrest, findAnchor_filter _ hrest]
    | false =>
      have hoff : ¬(p.FD0 = tty ∧ p.TTYNr ≠ 0 ∧ 0 < p.TPgid) := by
        rintro ⟨h1, h2, h3⟩
        rw [hp h1 h2 h3] at hk
        cases hk
      rw [List.filter_cons_of_neg (by rw [hk]; simp), findAnchor, if_neg hoff, findAnchor_filter _ hrest]

theorem resolveFrom_filter {anchor : ProcInfo} {activity : PaneActivity} {keep : ProcInfo → Bool} :
    ∀ {processes : List ProcInfo} (fallback commandLine cwd : Str),
    (∀ p ∈ processes, p.TTYNr = anchor.TTYNr → p.Pgrp = anchor.TPgid → keep p = true) →
    resolveFrom anchor activity fallback commandLine cwd (processes.filter keep) =
      resolveFrom anchor activity fallback commandLine cwd processes
  | [], _, _, _, _ => rfl
  | p :: rest, fallback, commandLine, cwd, h => by
    obtain ⟨hp, hrest⟩ := List.forall_mem_cons.mp h
    cases hk : keep p with
    | true =>
      rw [List.filter_cons_of_pos hk, resolveFrom, resolveFrom]
      simp only [resolveFrom_filter _ _ _ hrest]
    | false =>
      have hoff : p.TTYNr ≠ anchor.TTYNr ∨ p.Pgrp ≠ anchor.TPgid := by
        by_contra hin
        rw [not_or, not_not, not_not] at hin
        rw [hp hin.1 hin.2] at hk
        cases hk
      rw [List.filter_cons_of_neg (by rw [hk]; simp), resolveFrom, if_pos hoff, resolveFrom_filter _ _ _ hrest]

/-- Processes that are neither on the terminal nor in its foreground group may be left out. -/
theorem resolve_filter {tty : Str} {processes : List ProcInfo} {keep : ProcInfo → Bool}
    (hon : ∀ p ∈ processes, p.FD0 = tty → p.TTYNr ≠ 0 → 0 < p.TPgid → keep p = true)
    (hgroup : ∀ a ∈ processes, a.FD0 = tty → a.TTYNr ≠ 0 → 0 < a.TPgid →
      ∀ p ∈ processes, p.TTYNr = a.TTYNr → p.Pgrp = a.TPgid → keep p = true) :
    ResolveTTYActivity tty (processes.filter keep) = ResolveTTYActivity tty processes := by
  unfold ResolveTTYActivity
  rw [findAnchor_filter none hon]
  cases ha : findAnchor tty processes none with
  | none => rfl
  | some a =>
    rcases findAnchor_some ha with he | ⟨hm, h1, h2, h3⟩
    · cases he
    · exact resolveFrom_filter [] [] [] (hgroup a hm h1 h2 h3)

/-! ## Sorting -/

theorem byPID_perm (processes : List ProcInfo) : (byPID processes).Perm processes := List.mergeSort_perm ..

theorem byPID_sorted (processes : List ProcInfo) : (byPID processes).Pairwise fun a b => a.PID ≤ b.PID := by
  have h := @List.pairwise_mergeSort _ (fun a b : ProcInfo => decide (a.PID ≤ b.PID))
    (fun a b c hab hbc => by simp only [decide_eq_true_eq] at hab hbc ⊢; omega)
    (fun a b => by simp only [Bool.or_eq_true, decide_eq_true_eq]; omega) processes
  exact h.imp fun hab => by simpa using hab

/-- Numbers that differ leave one order. -/
theorem byPID_filter {processes : List ProcInfo} (h : (processes.map ProcInfo.PID).Nodup) (keep : ProcInfo → Bool) :
    byPID (processes.filter keep) = (byPID processes).filter keep := by
  refine List.Perm.eq_of_pairwise ?_ (byPID_sorted _)
    ((byPID_sorted _).sublist List.filter_sublist) ((byPID_perm _).trans ((byPID_perm _).symm.filter _))
  intro a b ha hb hab hba
  have ha' := List.mem_of_mem_filter ((byPID_perm _).subset ha)
  have hb' := (byPID_perm _).subset (List.mem_of_mem_filter hb)
  exact List.inj_on_of_nodup_map h ha' hb' (Int.le_antisymm hab hba)

/-! ## Agreement -/

/-- A process table: no number is there twice, and the processes of a terminal have one foreground group. -/
structure ProcTable (table : List ProcEntry) : Prop where
  distinct : (table.map ProcEntry.pid).Nodup
  foreground : ∀ i ∈ table.filterMap ProcEntry.info, ∀ j ∈ table.filterMap ProcEntry.info,
    i.TTYNr = j.TTYNr → i.TTYNr ≠ 0 → i.TPgid = j.TPgid

theorem info_pids : ∀ (table : List ProcEntry), ((table.filterMap ProcEntry.info).map ProcInfo.PID).Sublist
    (table.map fun e => (e.pid : Int))
  | [] => List.Sublist.refl _
  | e :: table => by
    have ih := info_pids table
    rw [List.map_cons]
    cases hinfo : e.info with
    | none =>
      rw [List.filterMap_cons_none hinfo]
      exact ih.cons _
    | some i =>
      have hpid : i.PID = e.pid := by
        unfold ProcEntry.info at hinfo
        split at hinfo
        · cases hinfo
        · obtain ⟨j, hj, rfl⟩ := Option.map_eq_some_iff.mp hinfo
          show j.PID = e.pid
          exact e.parseProcStat_pid hj
      rw [List.filterMap_cons_some hinfo, List.map_cons, hpid]
      exact ih.cons_cons _

theorem ProcTable.nodup {table : List ProcEntry} (h : ProcTable table) :
    ((table.filterMap ProcEntry.info).map ProcInfo.PID).Nodup := by
  refine (info_pids table).nodup ?_
  have hcast := h.distinct.map (f := fun n : Nat => (n : Int)) fun a b hab => Int.ofNat.inj hab
  rw [List.map_map] at hcast
  exact hcast

theorem scans_agree_of_plain {table : List ProcEntry} (ht : ProcTable table) (hp : ∀ e ∈ table, e.Plain) (ttys : List Str) :
    scanContainerActivities table ttys = scanProcActivities table ttys := by
  unfold scanContainerActivities scanProcActivities
  dsimp only
  generalize uniqueTTYs ttys = unique
  split
  · rfl
  have hparsed : ParseProcScanOutput (procScan table) = byPID (table.filterMap ProcEntry.info) := by
    unfold ParseProcScanOutput
    rw [procScan_parsed hp]
  have hmem {i : ProcInfo} (hi : i ∈ byPID (table.filterMap ProcEntry.info)) : i ∈ table.filterMap ProcEntry.info :=
    (byPID_perm _).subset hi
  -- The map has the foreground group of each requested process.
  have hlookup {a : ProcInfo} (ha : a ∈ table.filterMap ProcEntry.info) (hin : a.FD0 ∈ unique) (h0 : a.TTYNr ≠ 0)
      (hpos : 0 < a.TPgid) :
      (foregroundByTTYNr unique (table.filterMap ProcEntry.candidate)).lookup a.TTYNr = some a.TPgid := by
    obtain ⟨c, hc, hfd0, hnr, hgroup⟩ := candidate_of_info ha (by simp [ProcInfo.onTerminal, h0, hpos])
    refine foreground_lookup (fun d hd hdt => ?_) (.inr ⟨c, hc, ?_, hnr⟩)
    · obtain ⟨j, hj, hjnr, hjgroup⟩ := info_of_candidate hd
      rw [hjgroup]
      rw [hjnr] at hdt
      exact ht.foreground j hj a ha hdt (by rw [hdt]; exact h0)
    · rw [hfd0]
      exact List.contains_iff_mem.mpr hin
  rw [hparsed, processes_kept, byPID_filter ht.nodup]
  split
  · rename_i hnone
    refine List.map_congr_left fun tty hin => ?_
    -- No process is on a requested terminal.
    unfold ResolveTTYActivity
    cases ha : findAnchor tty (byPID (table.filterMap ProcEntry.info)) none with
    | none => rfl
    | some a =>
      rcases findAnchor_some ha with he | ⟨hm, h1, h2, h3⟩
      · cases he
      · have hl := hlookup (hmem hm) (by rw [h1]; exact hin) h2 h3
        rw [hnone] at hl
        cases hl
  · refine List.map_congr_left fun tty hin => ?_
    rw [resolve_filter]
    · intro p hm h1 h2 h3
      have hcontains : unique.contains p.FD0 = true := List.contains_iff_mem.mpr (by rw [h1]; exact hin)
      unfold isKept
      rw [hcontains]
      simp [ProcInfo.onTerminal, h2, h3]
    · intro a ha h1 h2 h3 p hm hnr hgroup
      have hl := hlookup (hmem ha) (by rw [h1]; exact hin) h2 h3
      have hfg : p.TPgid = a.TPgid := ht.foreground p (hmem hm) a (hmem ha) hnr (by rw [hnr]; exact h2)
      have hkept : isKept unique (foregroundByTTYNr unique (table.filterMap ProcEntry.candidate)) p = true := by
        unfold isKept
        rw [hnr, hl, hgroup]
        simp
      rw [hkept]
      simp [ProcInfo.onTerminal, hnr, h2, hfg, h3]

/-! ## Paths that are not printed as they are -/

/-- `vim` in the foreground of a terminal, in some directory. -/
def vimIn (cwd : Str) : ProcEntry where
  pid := 10
  name := bytesOf "10"
  named := by decide
  bounded := by decide
  comm := bytesOf "vim"
  fields := bytesOf " S 1 10 10 34816 10"
  oneLine := by decide
  fd0 := some (bytesOf "/dev/pts/0")
  cwd := some cwd
  cmdline := some (bytesOf "vim")

def vimTTY : Str := bytesOf "/dev/pts/0"

theorem vimIn_table (cwd : Str) : ProcTable [vimIn cwd] where
  distinct := by simp
  foreground := by
    intro i hi j hj _ _
    obtain ⟨e, he, hie⟩ := List.mem_filterMap.mp hi
    obtain ⟨d, hd, hjd⟩ := List.mem_filterMap.mp hj
    rw [List.mem_singleton.mp he] at hie
    rw [List.mem_singleton.mp hd, hie] at hjd
    rw [Option.some.inj hjd]

/-- On the host `vim` is found in any directory. -/
theorem host_vimIn (cwd : Str) : scanProcActivities [vimIn cwd] [vimTTY] =
    [(vimTTY, { TTY := vimTTY, Busy := true, Command := bytesOf "vim", CommandLine := bytesOf "vim", CWD := trimSpace cwd })] := by
  have hunique : uniqueTTYs [vimTTY] = [vimTTY] := by decide +kernel
  have hstat : parseProcStat (vimIn cwd).stat =
      some { PID := 10, Comm := bytesOf "vim", Pgrp := 10, TTYNr := 34816, TPgid := 10 } := by
    show parseProcStat (bytesOf "10 (vim) S 1 10 10 34816 10\n") = _
    decide +kernel
  have htty : ProcEntry.readProcLink (vimIn cwd).fd0 = vimTTY := by
    show trimSpace vimTTY = _
    decide +kernel
  have hcmd : (vimIn cwd).readProcCmdline = bytesOf "vim" := by
    show trimSpace (ProcEntry.spaced (bytesOf "vim")) = _
    decide +kernel
  have hcandidate : (vimIn cwd).candidate =
      some ({ PID := 10, Comm := bytesOf "vim", FD0 := vimTTY, Pgrp := 10, TTYNr := 34816, TPgid := 10 }, vimIn cwd) := by
    unfold ProcEntry.candidate
    rw [(vimIn cwd).isProcPIDDirName_name, hstat, htty]
    rfl
  have hdisplay (cwd : Str) : displayCommand { PID := 10, Comm := bytesOf "vim", Cmd := bytesOf "vim", CWD := cwd, FD0 := vimTTY, Pgrp := 10, TTYNr := 34816, TPgid := 10 } = bytesOf "vim" := by
    have hfields : spaceFields (bytesOf "vim") = [bytesOf "vim"] := by decide +kernel
    have hbase : trimDash (base (bytesOf "vim")) = bytesOf "vim" := by decide +kernel
    unfold displayCommand
    rw [hfields]
    simp only [hbase]
    exact if_pos (by decide)
  have hbusy : isIdleShellCommand (bytesOf "vim") (bytesOf "vim") = false := by decide +kernel
  unfold scanProcActivities
  simp only [hunique, List.filterMap_cons, hcandidate, List.filterMap_nil]
  simp [foregroundByTTYNr, isKept, hcmd, byPID, ResolveTTYActivity, findAnchor, resolveFrom, hdisplay, hbusy]
  rfl

/-- A command line and a directory are those of processes. -/
theorem resolveFrom_from {onCmd onCWD : Str → Prop} {anchor : ProcInfo} {activity : PaneActivity} :
    ∀ {processes : List ProcInfo} {fallback commandLine cwd : Str}, (∀ p ∈ processes, onCmd p.Cmd ∧ onCWD p.CWD) →
      onCmd commandLine → onCWD cwd →
      onCmd (resolveFrom anchor activity fallback commandLine cwd processes).CommandLine ∧
        onCWD (resolveFrom anchor activity fallback commandLine cwd processes).CWD
  | [], _, _, _, _, hcmd, hcwd => ⟨hcmd, hcwd⟩
  | p :: rest, fallback, commandLine, cwd, h, hcmd, hcwd => by
    obtain ⟨hp, hrest⟩ := List.forall_mem_cons.mp h
    have hcmd' : onCmd (if commandLine = [] then p.Cmd else commandLine) := by
      split
      · exact hp.1
      · exact hcmd
    have hcwd' : onCWD (if cwd = [] then p.CWD else cwd) := by
      split
      · exact hp.2
      · exact hcwd
    rw [resolveFrom]
    split
    · exact resolveFrom_from hrest hcmd hcwd
    · dsimp only
      split
      · refine ⟨hp.1, ?_⟩
        dsimp only
        split
        · exact hcwd'
        · exact hp.2
      · exact resolveFrom_from hrest hcmd' hcwd'

theorem resolve_from {onCmd onCWD : Str → Prop} {tty : Str} {processes : List ProcInfo} (hcmd : onCmd []) (hcwd : onCWD [])
    (h : ∀ p ∈ processes, onCmd p.Cmd ∧ onCWD p.CWD) :
    onCmd (ResolveTTYActivity tty processes).CommandLine ∧ onCWD (ResolveTTYActivity tty processes).CWD := by
  unfold ResolveTTYActivity
  split
  · exact ⟨hcmd, hcwd⟩
  · exact resolveFrom_from h hcmd hcwd

theorem splitN_inv {b : UInt8} {n : Nat} {s a c : Str} {rest : List Str} (h : splitN b (n + 2) s = a :: c :: rest) :
    ∃ behind, s = a ++ b :: behind ∧ b ∉ a ∧ splitN b (n + 1) behind = c :: rest := by
  rw [splitN] at h
  split at h
  · rename_i hm
    obtain ⟨rfl, hrest⟩ := List.cons.inj h
    refine ⟨(s.dropWhile (· ≠ b)).tail, ?_, fun hin => ?_, hrest⟩
    · have hne : s.dropWhile (· ≠ b) ≠ [] := by
        intro hnil
        have := List.dropWhile_eq_nil_iff.mp hnil b hm
        simp at this
      have hhead : (s.dropWhile (· ≠ b)).head hne = b := by
        have := List.head_dropWhile_not (· ≠ b) hne
        simpa using this
      conv => lhs; rw [← List.takeWhile_append_dropWhile (p := (· ≠ b)) (l := s), ← List.cons_head_tail hne, hhead]
    · have := List.mem_takeWhile_imp hin
      simp at this
  · cases h

/-- The fields of a line that is read. -/
theorem parseProcScanLine_fields {line : Str} {i : ProcInfo} (h : parseProcScanLine line = some i) :
    ∃ pid fd0 cwd cmd stat, line = 80 :: 9 :: (pid ++ 9 :: (fd0 ++ 9 :: (cwd ++ 9 :: (cmd ++ 9 :: stat)))) ∧
      9 ∉ pid ∧ 9 ∉ fd0 ∧ 9 ∉ cwd ∧ 9 ∉ cmd ∧ i.CWD = trimSpace cwd ∧ i.Cmd = trimSpace cmd := by
  unfold parseProcScanLine at h
  split at h
  · cases h
  · rename_i hfront
    rw [Bool.not_eq_true, Bool.not_eq_false'] at hfront
    obtain ⟨behind, rfl⟩ := List.isPrefixOf_iff_prefix.mp hfront
    split at h
    · rename_i first pid fd0 cwd cmd stat hsplit
      rw [show ([80, 9] : Str) ++ behind = [80] ++ 9 :: behind from rfl,
        splitN_cons (show (9 : UInt8) ∉ [80] by decide)] at hsplit
      obtain ⟨b1, rfl, h1, hsplit⟩ := splitN_inv (List.cons.inj hsplit).2
      obtain ⟨b2, rfl, h2, hsplit⟩ := splitN_inv hsplit
      obtain ⟨b3, rfl, h3, hsplit⟩ := splitN_inv hsplit
      obtain ⟨b4, rfl, h4, hsplit⟩ := splitN_inv hsplit
      refine ⟨pid, fd0, cwd, cmd, b4, rfl, h1, h2, h3, h4, ?_⟩
      split at h
      · cases h
        exact ⟨rfl, rfl⟩
      · cases h
    · cases h

/-- What the script prints for `vim`, up to its directory and behind it. -/
def vimFront : Str := bytesOf "P\t10\t/dev/pts/0\t"

def vimBack : Str := bytesOf "\tvim\t10 (vim) S 1 10 10 34816 10"

theorem procScan_vimIn (cwd : Str) : procScan [vimIn cwd] = vimFront ++ substituted cwd ++ vimBack ++ [10] := by
  have hcwd : ProcEntry.readlink (vimIn cwd).cwd = substituted cwd := substituted_newline cwd
  have hscan : procScan [vimIn cwd] = (vimIn cwd).scanLine := List.append_nil _
  rw [hscan]
  unfold ProcEntry.scanLine
  rw [hcwd, if_neg (show ¬(vimIn cwd).gone = true from Bool.false_ne_true)]
  have hfront : [80] ++ 9 :: (vimIn cwd).name ++ 9 :: ProcEntry.readlink (vimIn cwd).fd0 ++ [9] = vimFront := by
    show [80] ++ 9 :: bytesOf "10" ++ 9 :: ProcEntry.readlink (some (bytesOf "/dev/pts/0")) ++ [9] = _
    decide +kernel
  have hback : 9 :: substituted (((vimIn cwd).cmdline.map ProcEntry.spaced).getD []) ++ 9 :: substituted (vimIn cwd).stat = vimBack := by
    show 9 :: substituted (ProcEntry.spaced (bytesOf "vim")) ++ 9 :: substituted (bytesOf "10 (vim) S 1 10 10 34816 10\n") = _
    decide +kernel
  rw [← hfront, ← hback]
  simp

theorem container_vimIn {onCmd onCWD : Str → Prop} {cwd : Str} (hcmd : onCmd []) (hcwd : onCWD [])
    (h : ∀ line ∈ (procScan [vimIn cwd]).splitOn 10, ∀ i ∈ parseProcScanLine line, onCmd i.Cmd ∧ onCWD i.CWD) :
    ∃ activity, scanContainerActivities [vimIn cwd] [vimTTY] = [(vimTTY, activity)] ∧ onCmd activity.CommandLine ∧
      onCWD activity.CWD := by
  have hunique : uniqueTTYs [vimTTY] = [vimTTY] := by decide +kernel
  refine ⟨ResolveTTYActivity vimTTY (ParseProcScanOutput (procScan [vimIn cwd])), ?_, ?_⟩
  · unfold scanContainerActivities
    simp [hunique]
  · refine resolve_from hcmd hcwd fun p hp => ?_
    obtain ⟨line, hline, hparse⟩ := List.mem_filterMap.mp ((byPID_perm _).subset hp)
    exact h line hline p hparse

/-- A tab or a line end inside of the directory is in none that is read back. -/
theorem differ_inside {cwd : Str} (h : 9 ∈ trimSpace cwd ∨ 10 ∈ trimSpace cwd) :
    scanContainerActivities [vimIn cwd] [vimTTY] ≠ scanProcActivities [vimIn cwd] [vimTTY] := by
  obtain ⟨activity, hcontainer, -, htab, hline⟩ := @container_vimIn (fun _ => True)
    (fun cwd => 9 ∉ cwd ∧ 10 ∉ cwd) cwd trivial ⟨List.not_mem_nil, List.not_mem_nil⟩ (by
      intro line hin i hi
      obtain ⟨pid, fd0, cwd, cmd, stat, hfields, -, -, hcwd, -, heq, -⟩ := parseProcScanLine_fields hi
      rw [heq]
      refine ⟨trivial, fun hm => hcwd (trimSpace_subset _ hm), fun hm => GoText.not_mem_splitOn line hin ?_⟩
      rw [hfields]
      simp [trimSpace_subset _ hm])
  rw [hcontainer, host_vimIn]
  intro heq
  have hcwd : activity.CWD = trimSpace cwd := by
    rw [(Prod.mk.inj (List.cons.inj heq).1).2]
  rw [hcwd] at htab hline
  exact h.elim htab hline

theorem substituted_append {t : Str} (h : 10 ∉ t) (s : Str) : substituted (t ++ s) = t ++ substituted s := by
  induction s using List.reverseRecOn with
  | nil =>
    rw [List.append_nil, substituted_of_not_mem h]
    exact (List.append_nil t).symm
  | append_singleton s b ih =>
    rw [← List.append_assoc]
    by_cases hb : b = 10
    · rw [hb, substituted_newline, substituted_newline, ih]
    · unfold substituted
      rw [List.rdropWhile_concat_neg _ _ _ (by simpa using hb), List.rdropWhile_concat_neg _ _ _ (by simpa using hb),
        List.append_assoc]

theorem substituted_subset (s : Str) : substituted s ⊆ s := (List.rdropWhile_prefix _ _).subset

/-- What is printed for a path whose end alone is not plain. -/
theorem substituted_end {cwd : Str} (hslash : cwd.head? = some slash) (hline : 10 ∉ trimSpace cwd) :
    ∃ w, substituted cwd = trimSpace cwd ++ w ∧ w ⊆ spaces.flatten := by
  obtain ⟨front, back, hsplit, hfront, hback⟩ := trimSpace_split cwd
  have hnil : front = [] := by
    cases front with
    | nil => rfl
    | cons b front =>
      rw [hsplit] at hslash
      have hb : b = slash := Option.some.inj hslash
      have hm := hfront (List.mem_cons_self (a := b) (l := front))
      rw [hb] at hm
      exact absurd hm (by decide)
  refine ⟨substituted back, ?_, fun b hb => hback (substituted_subset back hb)⟩
  conv => lhs; rw [hsplit, hnil]
  exact substituted_append hline back

/-- The fields of a line that begins as that of `vim` does. -/
theorem vimFront_fields {pid fd0 cwd cmd stat t rest : Str}
    (heq : 80 :: 9 :: (pid ++ 9 :: (fd0 ++ 9 :: (cwd ++ 9 :: (cmd ++ 9 :: stat)))) = vimFront ++ (t ++ rest))
    (hpid : 9 ∉ pid) (hfd0 : 9 ∉ fd0) (hcwd : 9 ∉ cwd) (ht : 9 ∉ t) :
    ∃ c, rest = c ++ 9 :: (cmd ++ 9 :: stat) ∧ 9 ∉ c := by
  have hfront : vimFront ++ (t ++ rest) = 80 :: 9 :: (bytesOf "10" ++ 9 :: (vimTTY ++ 9 :: (t ++ rest))) := by
    have hsplit : vimFront = 80 :: 9 :: (bytesOf "10" ++ 9 :: (vimTTY ++ [9])) := by decide +kernel
    rw [hsplit]
    simp
  rw [hfront] at heq
  have heq := (List.cons.inj (List.cons.inj heq).2).2
  have heq := (append_cons_inj_left heq hpid (by decide +kernel)).2
  have heq := (append_cons_inj_left heq hfd0 (by decide +kernel)).2
  rcases List.append_eq_append_iff.mp heq with ⟨more, rfl, hrest⟩ | ⟨c, rfl, hrest⟩
  · cases more with
    | nil => exact ⟨[], hrest.symm, List.not_mem_nil⟩
    | cons b more =>
      rw [List.cons_append] at hrest
      rw [← (List.cons.inj hrest).1] at ht
      exact absurd ht (by simp)
  · exact ⟨c, hrest, fun hm => hcwd (List.mem_append_right t hm)⟩

/-- A tab or a line end behind the directory keeps the command line from being read back. -/
theorem differ_behind {cwd w : Str} (hw : substituted cwd = trimSpace cwd ++ w) (hspaces : w ⊆ spaces.flatten)
    (htab : 9 ∉ trimSpace cwd) (hline : 10 ∉ trimSpace cwd) (h : 9 ∈ w ∨ 10 ∈ w) :
    scanContainerActivities [vimIn cwd] [vimTTY] ≠ scanProcActivities [vimIn cwd] [vimTTY] := by
  have hv : 118 ∉ w := fun hm => absurd (hspaces hm) (by decide)
  have hfront : 10 ∉ vimFront := by decide +kernel
  have hlines : ∀ line ∈ (procScan [vimIn cwd]).splitOn 10, ∀ i ∈ parseProcScanLine line, 118 ∉ i.Cmd := by
    intro line hin i hi
    obtain ⟨pid, fd0, dir, cmd, stat, hfields, hpid, hfd0, hdir, hcmd, -, heq⟩ := parseProcScanLine_fields hi
    rw [heq]
    suffices hsub : 118 ∉ cmd from fun hm => hsub (trimSpace_subset _ hm)
    rw [procScan_vimIn, hw] at hin
    by_cases hend : 10 ∈ w
    · obtain ⟨w₁, w₂, rfl, hw₁⟩ := List.eq_append_cons_of_mem hend
      have hsplit : vimFront ++ (trimSpace cwd ++ (w₁ ++ 10 :: w₂)) ++ vimBack ++ [10] =
          (vimFront ++ (trimSpace cwd ++ w₁)) ++ 10 :: (w₂ ++ vimBack ++ [10]) := by
        simp
      rw [hsplit, List.splitOn_append_cons_self_of_not_mem (by simp [hfront, hline, hw₁])] at hin
      rcases List.mem_cons.mp hin with rfl | hin
      · obtain ⟨c, hrest, -⟩ := vimFront_fields hfields.symm hpid hfd0 hdir htab
        intro hm
        refine hv (List.mem_append_left _ ?_)
        rw [hrest]
        simp [hm]
      · -- No line behind the first begins with a `P`.
        have hP : (80 : UInt8) ∈ w₂ ++ vimBack ++ [10] :=
          GoText.subset_of_mem_splitOn line hin (by rw [hfields]; exact List.mem_cons_self ..)
        have hback : (80 : UInt8) ∉ vimBack ++ [10] := by decide +kernel
        rw [List.append_assoc] at hP
        refine absurd (hspaces (List.mem_append_right w₁ (List.mem_cons_of_mem 10 ?_))) (show (80 : UInt8) ∉ spaces.flatten by decide)
        exact (List.mem_append.mp hP).resolve_right hback
    · obtain ⟨w₁, w₂, rfl, hw₁⟩ := List.eq_append_cons_of_mem (h.resolve_right hend)
      have hback : 10 ∉ vimBack := by decide +kernel
      rw [List.splitOn_append_cons_self_of_not_mem (by simp only [List.mem_append, not_or]; exact ⟨⟨hfront, hline, by simpa using hend⟩, hback⟩)] at hin
      rcases List.mem_cons.mp hin with rfl | hin
      · have hsplit : vimFront ++ (trimSpace cwd ++ (w₁ ++ 9 :: w₂)) ++ vimBack =
            vimFront ++ (trimSpace cwd ++ (w₁ ++ 9 :: (w₂ ++ vimBack))) := by
          simp
        rw [hsplit] at hfields
        obtain ⟨c, hrest, hc⟩ := vimFront_fields hfields.symm hpid hfd0 hdir htab
        have hrest := (append_cons_inj_left hrest hw₁ hc).2
        intro hm
        refine hv (List.mem_append_right _ (List.mem_cons_of_mem 9 ?_))
        rcases List.append_eq_append_iff.mp hrest with ⟨more, rfl, hmore⟩ | ⟨more, rfl, -⟩
        · cases more with
          | nil => simpa using hm
          | cons b more =>
            have hb : (9 : UInt8) = b := (List.cons.inj hmore).1
            rw [← hb] at hcmd
            exact absurd hcmd (by simp)
        · exact List.mem_append_left _ hm
      · rw [List.splitOn_nil, List.mem_singleton] at hin
        rw [hin] at hfields
        cases hfields
  obtain ⟨activity, hcontainer, hcmd, -⟩ := @container_vimIn (fun cmd => 118 ∉ cmd) (fun _ => True) _
    List.not_mem_nil trivial fun line hin i hi => ⟨hlines line hin i hi, trivial⟩
  rw [hcontainer, host_vimIn]
  intro heq
  have hvim : activity.CommandLine = bytesOf "vim" := by
    rw [(Prod.mk.inj (List.cons.inj heq).1).2]
  rw [hvim] at hcmd
  exact hcmd (by decide +kernel)

theorem differ_of_not_plain {cwd : Str} (hslash : cwd.head? = some slash) (h : ¬PlainPath cwd) :
    scanContainerActivities [vimIn cwd] [vimTTY] ≠ scanProcActivities [vimIn cwd] [vimTTY] := by
  by_cases hinside : 9 ∈ trimSpace cwd ∨ 10 ∈ trimSpace cwd
  · exact differ_inside hinside
  · rw [not_or] at hinside
    obtain ⟨w, hw, hspaces⟩ := substituted_end hslash hinside.2
    refine differ_behind hw hspaces hinside.1 hinside.2 ?_
    unfold PlainPath at h
    rw [hw, List.mem_append, List.mem_append, not_and_or, not_not, not_not] at h
    exact h.imp (fun h => h.resolve_left hinside.1) fun h => h.resolve_left hinside.2

/-- The paths of a process. -/
def ProcEntry.paths (e : ProcEntry) : List Str := e.fd0.toList ++ e.cwd.toList

theorem ProcEntry.plain_of_paths {e : ProcEntry} (h : ∀ path ∈ e.paths, PlainPath path) : e.Plain where
  fd0 := fun path hm => h path (List.mem_append_left _ (Option.mem_toList.mpr hm))
  cwd := fun path hm => h path (List.mem_append_right _ (Option.mem_toList.mpr hm))

/-- The scans agree on every table with plain paths, and beside plain paths just another one may be there if it is plain. -/
theorem scans_agree_iff (cwd : Str) :
    (∀ table, ProcTable table → (∀ e ∈ table, ∀ path ∈ e.paths, PlainPath path) → ∀ ttys,
      scanContainerActivities table ttys = scanProcActivities table ttys) ∧
    (cwd.head? = some slash →
      ((∀ table, ProcTable table → (∀ e ∈ table, ∀ path ∈ e.paths, PlainPath path ∨ path = cwd) → ∀ ttys,
        scanContainerActivities table ttys = scanProcActivities table ttys) ↔ PlainPath cwd)) := by
  refine ⟨fun table ht hp ttys => scans_agree_of_plain ht (fun e he => ProcEntry.plain_of_paths (hp e he)) ttys,
    fun hslash => ⟨fun h => ?_, fun hplain table ht hp ttys => ?_⟩⟩
  · by_contra hnot
    refine differ_of_not_plain hslash hnot (h _ (vimIn_table cwd) (fun e he path hm => ?_) _)
    rw [List.mem_singleton.mp he] at hm
    rcases List.mem_append.mp hm with hm | hm
    · left
      rw [← Option.some.inj (Option.mem_toList.mp hm)]
      unfold PlainPath
      decide +kernel
    · exact .inr (Option.some.inj (Option.mem_toList.mp hm)).symm
  · refine scans_agree_of_plain ht (fun e he => ProcEntry.plain_of_paths fun path hm => ?_) ttys
    rcases hp e he path hm with h | rfl
    · exact h
    · exact hplain

/-- `vim` runs in a directory whose name has a line end: the host sees it, the container does not. -/
theorem scans_differ_line_end : ProcTable [vimIn (bytesOf "/a\nb")] ∧
    scanProcActivities [vimIn (bytesOf "/a\nb")] [vimTTY] =
      [(vimTTY, { TTY := vimTTY, Busy := true, Command := bytesOf "vim", CommandLine := bytesOf "vim", CWD := bytesOf "/a\nb" })] ∧
    scanContainerActivities [vimIn (bytesOf "/a\nb")] [vimTTY] = [(vimTTY, { TTY := vimTTY })] := by
  refine ⟨vimIn_table _, ?_, by decide +kernel⟩
  rw [host_vimIn, show trimSpace (bytesOf "/a\nb") = bytesOf "/a\nb" by decide +kernel]

end Webshell
