/-!
# The programs of a system

The names of the programs that every system keeps in its own directories, by which
a child finds them even where nothing is said about what they do.
-/

set_option autoImplicit false

namespace Retrial.Shell

def shellNames : List String := ["sh", "dash", "bash"]

def systemNames : List String :=
  ["[", "arch", "awk", "base64", "basename", "cat", "chgrp", "chmod", "chown", "cksum", "cmp", "comm", "cp", "cut", "date", "dd",
    "diff", "dirname", "du", "echo", "egrep", "env", "expand", "expr", "factor", "false", "fgrep", "find", "fold",
    "grep", "groups", "head", "hostname", "id", "install", "join", "kill", "ln", "logname", "ls", "mawk", "md5sum", "mkdir", "mkfifo", "mktemp",
    "mv", "nawk", "nice", "nl", "nohup", "nproc", "od", "paste", "perl", "pgrep", "pkill", "printenv", "printf", "ps",
    "pwd", "readlink", "realpath", "rev", "rm", "rmdir", "sed", "seq", "setsid", "sha1sum", "sha224sum", "sha256sum", "sha384sum", "sha512sum", "shuf", "sleep",
    "sort", "split", "stat", "stdbuf", "sync", "tac", "tail", "tar", "tee", "test", "timeout", "touch", "tr",
    "true", "truncate", "tty", "uname", "unexpand", "uniq", "unlink", "wc", "which", "whoami", "xargs", "yes"]

def isSystemProgram (path : String) : Bool :=
  let named ( directory : String) : Bool :=
    path.startsWith directory &&
      (shellNames ++ systemNames).contains (path.drop directory.length).toString
  named "/bin/" || named "/usr/bin/"

end Retrial.Shell
