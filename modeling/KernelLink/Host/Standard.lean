import KernelLink.Host.Files
/-!
# What every system has

The directories, files and programs that a launch may meet before anything is made for it.

Main definitions:
* `Files.standard`: the file system of a system that has just been started.
* `Files.programs`: the names of its programs, all of them in one directory.
-/
namespace KernelLink.Host.Files

open KernelLink.Host.Path (ascii)

/-- The directories, each below one that stands before it. -/
def directories : List String :=
  ["/boot", "/dev", "/etc", "/home", "/media", "/mnt", "/opt", "/proc", "/root", "/run", "/srv",
    "/sys", "/tmp", "/usr", "/var", "/work", "/dev/fd", "/dev/mqueue", "/dev/pts", "/dev/shm",
    "/etc/alternatives", "/etc/apt", "/etc/default", "/etc/init.d", "/etc/profile.d", "/etc/skel",
    "/etc/ssl", "/etc/ssl/certs", "/proc/1", "/proc/self", "/proc/self/fd", "/proc/sys",
    "/run/lock", "/sys/class", "/sys/fs", "/sys/kernel", "/usr/bin", "/usr/games", "/usr/include",
    "/usr/lib", "/usr/lib64", "/usr/libexec", "/usr/local", "/usr/sbin", "/usr/share", "/usr/src",
    "/usr/local/bin", "/usr/local/etc", "/usr/local/games", "/usr/local/include", "/usr/local/lib",
    "/usr/local/sbin", "/usr/local/share", "/usr/local/src", "/usr/share/doc", "/usr/share/man",
    "/usr/share/zoneinfo", "/var/backups", "/var/cache", "/var/lib", "/var/local", "/var/log",
    "/var/mail", "/var/opt", "/var/spool", "/var/tmp", "/var/lib/dpkg"]

/-- The places that lead to other places. -/
def standardLinks : List (String × String) :=
  [("/bin", "/usr/bin"), ("/lib", "/usr/lib"), ("/lib64", "/usr/lib64"), ("/sbin", "/usr/sbin"),
    ("/usr/local/man", "/usr/local/share/man"), ("/var/lock", "/run/lock"), ("/var/run", "/run")]

/-- The files that hold text, with how they begin. -/
def documents : List (String × String) :=
  [("/dev/null", ""), ("/etc/passwd", "root:x:0:0:root:/root:/bin/bash\n"),
    ("/etc/group", "root:x:0:\n"), ("/etc/shadow", "root:*:"),
    ("/etc/hosts", "127.0.0.1\tlocalhost\n"), ("/etc/hostname", "localhost\n"),
    ("/etc/os-release", "PRETTY_NAME="), ("/etc/resolv.conf", "nameserver "),
    ("/etc/profile", "# /etc/profile: "), ("/etc/fstab", "# UNCONFIGURED FSTAB FOR BASE SYSTEM\n"),
    ("/etc/nsswitch.conf", "# /etc/nsswitch.conf\n"), ("/etc/shells", "# /etc/shells: "),
    ("/proc/cpuinfo", "processor\t: 0\n"), ("/proc/meminfo", "MemTotal: "),
    ("/proc/version", "Linux version ")]

/-- The names of the programs. -/
def programs : List String :=
  ["sh", "dash", "bash", "cat", "sleep", "true", "false", "printf", "echo", "ls", "env", "test",
    "pwd", "kill", "id", "head", "tail", "wc", "sort", "uniq", "tr", "cut", "tee", "seq", "date",
    "mkdir", "rmdir", "touch", "rm", "cp", "mv", "ln", "chmod", "chown", "uname", "grep", "sed",
    "basename", "dirname", "expr", "yes", "stat", "timeout", "which", "find", "xargs"]

/-- Where the programs are. -/
def programDirectory : String := "/usr/bin/"

/-- How a program begins. -/
def programBytes : List UInt8 := 0x7F :: ascii "ELF"

/-- What every system has. -/
def standard : Files :=
  let place (path : String) : Place := Path.parts (ascii path)
  let documents : List (Place × Node) :=
    documents.map fun entry => (place entry.1, .file (ascii entry.2) false)
  let programs : List (Place × Node) :=
    programs.map fun name => (place (programDirectory ++ name), .file programBytes true)
  ⟨directories.map (fun path => (place path, .directory)) ++ documents ++ programs,
    standardLinks.map fun link => (place link.1, place link.2), 0⟩

end KernelLink.Host.Files
