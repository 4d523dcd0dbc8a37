import OnePage.Config.Basic

/-! # Texts about the program itself -/

namespace OnePage

def programName : String := "serverd"

def programVersion : String := "0.1.0"

/-- The line that the program shows when it starts, and when asked for its version. -/
def banner : String :=
  programName ++ "/" ++ programVersion ++ ", copyright (c) 2021 Tom Dryer."

/-- The text that explains the flags. -/
def usage (program : String) : String :=
  "usage:\t" ++ program ++ " [flags]\n\n" ++
  "flags:\t-H, --hostname name (default: all interfaces)\n" ++
  "\t\tAddress to bind the listening socket to. `*' means all.\n\n" ++
  "\t-p, --port number (default: " ++ toString (Config.port {}) ++ ")\n" ++
  "\t\tSpecifies which port to listen on for connections.\n" ++
  "\t\tPass 0 to let the system choose any free port for you.\n\n" ++
  "\t-f, --configuration-filename filename (default: none)\n" ++
  "\t\tReads hostname, port and docroot from an option=value file.\n" ++
  "\t\tCommand line flags take precedence over the file.\n\n" ++
  "\t-r, --docroot directory (default: " ++ Config.docroot {} ++ ")\n" ++
  "\t\tDirectory holding the " ++ Config.indexName ++ " that every request receives.\n\n" ++
  "\t-t, --timeout secs (default: 0)\n" ++
  "\t\tIf a connection is idle for more than this many seconds,\n" ++
  "\t\tit will be closed. Set to zero to disable timeouts.\n\n" ++
  "\t-d, --daemon (default: don't daemonize)\n" ++
  "\t\tDetach from the controlling terminal and run in the background.\n" ++
  "\t\tDiagnostics go to syslog unless --log is given.\n\n" ++
  "\t--log filename (default: stdout)\n" ++
  "\t\tSpecifies which file to append diagnostics and the request log to.\n\n" ++
  "\t--syslog\n" ++
  "\t\tUse syslog for diagnostics and the request log.\n\n" ++
  "\t-h, --help\n" ++
  "\t\tDisplay this help and exit.\n\n" ++
  "\t--version\n" ++
  "\t\tDisplay version information and exit.\n\n"

end OnePage
